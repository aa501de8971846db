import SourcePrinter.Syntax.Tree

/-! References to types: the defaults that come with each kind of type, the nullability that
applies, and the view of a reference with another nullability. -/

namespace SourcePrinter

namespace PredefinedType

/-- What a slot of a primitive type holds when nothing was stored. -/
def defaultValue : PredefinedType → Option Expression
  | .single | .double => some (.detached (.float .zero))
  | .boolean => some (.detached (.boolean false))
  | .char => some (.detached (.character '\x00'))
  | .string | .object | .dynamic => some (.detached .nil)
  | .void => none
  | _ => some (.detached (.integer 0 10))

end PredefinedType

namespace TypeRef

/-- The nullability that applies: the one asked for, else the implied one. -/
def effective (t : TypeRef) : Nullability :=
  if t.explicit = .default then t.implied else t.explicit

/-- The type may hold an absent value. -/
def isNullable (t : TypeRef) : Bool := t.effective.isNullable

/-- The type is the given primitive type. -/
def isPredefined (t : TypeRef) (p : PredefinedType) : Bool :=
  match t.form with
  | .predefined q => p == q
  | _ => false

/-- The payload of a type referred to by name. -/
def named? (t : TypeRef) : Option NamedType :=
  match t.form with
  | .named n => some n
  | _ => none

end TypeRef

namespace TypeForm

/-- Types of this kind are held by reference. -/
def isClass : TypeForm → Bool
  | .predefined p => !p.isValueType
  | .array _ _ kind => kind == .dynamic
  | .constant target => target.isClass
  | .tuple _ | .range .. | .unknown => false
  | _ => true

/-- The nullability implied by the kind of type and by whether it is held by reference. A constant
type takes that of its target. -/
def implied (form : TypeForm) (isClass : Bool) : Nullability :=
  match form with
  | .unknown => .unknown
  | .constant target => target.effective
  | _ => if isClass then .nullableUnwrapped else .notNullable

/-- What a slot of this kind of type holds when nothing was stored. -/
def defaultValue : TypeForm → Option Expression
  | .predefined p => p.defaultValue
  | .range start _ => some start
  | form => if form.isClass then some (.detached .nil) else none

end TypeForm

namespace TypeRef

/-- A reference with the defaults of its kind. -/
def ofForm (id : NodeId) (form : TypeForm) : TypeRef :=
  { id, form, explicit := .default, implied := form.implied form.isClass, isClass := form.isClass,
    defaultValue := form.defaultValue }

/-- The reference held by reference or in place; the implied nullability follows. -/
def withClass (t : TypeRef) (isClass : Bool) : TypeRef :=
  { t with isClass, implied := t.form.implied isClass }

/-- The reference with a nullability of its own. -/
def withExplicit (t : TypeRef) (n : Nullability) : TypeRef := { t with explicit := n }

/-- The reference with another default value, or none. -/
def withDefaultValue (t : TypeRef) (value : Option Expression) : TypeRef :=
  { t with defaultValue := value }

/-- A request for a nullability changes nothing. The default one is a request to have none of its
own. -/
def satisfies (t : TypeRef) (n : Nullability) : Bool :=
  if n = .default then t.explicit == .default else n == t.effective

/-- The reference with the nullability asked for; the node is the same, so this is the reference to
write under the number of `t`. -/
def view (t : TypeRef) (n : Nullability) : TypeRef :=
  if t.satisfies n then t else t.withExplicit n

/-- A view has the nullability asked for. -/
theorem effective_view (t : TypeRef) (n : Nullability) :
    (t.view n).effective = if n = .default then t.implied else n := by
  unfold view satisfies withExplicit effective
  by_cases hn : n = .default
  · subst hn
    by_cases h : t.explicit = .default <;> simp [h]
  · by_cases h : t.explicit = .default
    · by_cases hi : n = t.implied <;> simp_all
    · by_cases hi : n = t.explicit <;> simp_all

end TypeRef

namespace NamedType

/-- The name with its namespace in front. -/
def fullName (n : NamedType) : String :=
  match n.namespaceName with
  | some space => if space.isEmpty then n.name else space ++ "." ++ n.name
  | none => n.name

end NamedType

end SourcePrinter
