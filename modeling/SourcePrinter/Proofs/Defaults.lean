import SourcePrinter.Proofs.Views

/-! The defaults of type references. The implied nullability and the default value come with the
kind of type and with whether it is held by reference. The implied nullability follows every change
of that; the default value stays the one of the kind. -/

namespace SourcePrinter

/-- A slot that starts out with the value, if there is one, starts out absent. -/
def StoresNil (value : Option Expression) : Prop := ∃ e ∈ value, e.form = .nil

@[simp] theorem storesNil_none : ¬StoresNil none := fun ⟨_, h, _⟩ => nomatch h

@[simp] theorem storesNil_some (e : Expression) : StoresNil (some e) ↔ e.form = .nil := by
  simp [StoresNil]

/-! ### Kinds of types -/

namespace TypeForm

/-- A primitive type starts out absent exactly if it is held by reference and has values. -/
theorem storesNil_predefined (p : PredefinedType) :
    StoresNil p.defaultValue ↔ p.isValueType = false ∧ p ≠ .void := by
  cases p <;> simp [PredefinedType.defaultValue, PredefinedType.isValueType, Expression.detached]

/-- A kind of type other than a range starts out absent exactly if it is held by reference and is
not the type without values. -/
theorem storesNil_defaultValue {form : TypeForm} (h : ∀ start stop, form ≠ .range start stop) :
    StoresNil form.defaultValue ↔ form.isClass = true ∧ form ≠ .predefined .void := by
  have held : ∀ isClass : Bool,
      StoresNil (if isClass then some (.detached .nil) else none) ↔ isClass = true := by
    intro isClass
    cases isClass <;> simp [Expression.detached]
  cases form with
  | predefined p => simp [defaultValue, isClass, storesNil_predefined]
  | range start stop => exact absurd rfl (h start stop)
  | named | pointer | array | dictionary | tuple | sequence | kindOf | constant | inlineBlock
  | unknown => simp [defaultValue, held]

end TypeForm

/-! ### References -/

namespace TypeRef

/-- A reference that was made by any constructor but that of ranges, and then changed in class and
nullability in any order, views of it among the changes. Its default value was never set. The index
is the class that was set last, if one was. -/
inductive Plain : Option Bool → TypeRef → Prop where
  | ofForm (id : NodeId) {form : TypeForm} :
    (∀ start stop, form ≠ .range start stop) → Plain none (.ofForm id form)
  | withClass {set : Option Bool} {t : TypeRef} (isClass : Bool) :
    Plain set t → Plain (some isClass) (t.withClass isClass)
  | withExplicit {set : Option Bool} {t : TypeRef} (n : Nullability) :
    Plain set t → Plain set (t.withExplicit n)
  | view {set : Option Bool} {s : TypeStore} {t : TypeRef} (n : Nullability) :
    s.Reachable → t ∈ s.nodes → Plain set t → Plain set (s.request t n).1
  | renumber {set : Option Bool} {t : TypeRef} (id : NodeId) :
    Plain set t → Plain set { t with id }

/-- A reference has the defaults of its kind: the nullability that its kind and its class imply, and
the default value of the kind, whatever its class has become. -/
structure HasDefaults (set : Option Bool) (t : TypeRef) : Prop where
  kind : ∀ start stop, t.form ≠ .range start stop
  implied : t.implied = t.form.implied t.isClass
  isClass : t.isClass = set.getD t.form.isClass
  defaultValue : t.defaultValue = t.form.defaultValue

namespace HasDefaults

variable {set : Option Bool} {t : TypeRef}

theorem ofForm (id : NodeId) {form : TypeForm} (h : ∀ start stop, form ≠ .range start stop) :
    (TypeRef.ofForm id form).HasDefaults none := ⟨h, rfl, rfl, rfl⟩

theorem withClass (h : t.HasDefaults set) (isClass : Bool) :
    (t.withClass isClass).HasDefaults (some isClass) := ⟨h.kind, rfl, rfl, h.defaultValue⟩

theorem withExplicit (h : t.HasDefaults set) (n : Nullability) :
    (t.withExplicit n).HasDefaults set := ⟨h.kind, h.implied, h.isClass, h.defaultValue⟩

theorem renumber (h : t.HasDefaults set) (id : NodeId) :
    ({ t with id } : TypeRef).HasDefaults set := ⟨h.kind, h.implied, h.isClass, h.defaultValue⟩

/-- A view is the reference itself, or differs from it in number and nullability. -/
theorem view (h : t.HasDefaults set) {s : TypeStore} (hs : s.Reachable) (ht : t ∈ s.nodes)
    (n : Nullability) : (s.request t n).1.HasDefaults set := by
  cases hsat : t.satisfies n with
  | true =>
    rw [TypeStore.request_of_satisfies hsat]
    exact h
  | false =>
    rw [(hs.sound.answer ht n).2 hsat]
    exact (h.withExplicit n).renumber _

end HasDefaults

theorem Plain.hasDefaults {set : Option Bool} {t : TypeRef} (h : t.Plain set) :
    t.HasDefaults set := by
  induction h with
  | ofForm id hform => exact .ofForm id hform
  | withClass isClass _ ih => exact ih.withClass isClass
  | withExplicit n _ ih => exact ih.withExplicit n
  | view n hs ht _ ih => exact ih.view hs ht n
  | renumber id _ ih => exact ih.renumber id

/-- The defaults of a reference whose default value was never set, of any kind but a range; among
the kinds are the constant types of any reference. Its implied nullability is the one that its kind
and its class imply. It starts out absent exactly if its kind is held by reference and is not the
type without values, whatever its class has become. So a type that is held in place starts out
absent exactly if its kind is held by reference and its class was set to that last. -/
theorem Plain.defaults_follow_kind {set : Option Bool} {t : TypeRef} (h : t.Plain set) :
    t.implied = t.form.implied t.isClass ∧
    (StoresNil t.defaultValue ↔ t.form.isClass = true ∧ t.form ≠ .predefined .void) ∧
    (StoresNil t.defaultValue ∧ t.isClass = false ↔
      set = some false ∧ t.form.isClass = true ∧ t.form ≠ .predefined .void) := by
  have hd := h.hasDefaults
  have hnil : StoresNil t.defaultValue ↔ t.form.isClass = true ∧ t.form ≠ .predefined .void := by
    rw [hd.defaultValue]
    exact TypeForm.storesNil_defaultValue hd.kind
  refine ⟨hd.implied, hnil, ?_⟩
  rw [hnil, hd.isClass]
  cases set with
  | none => simp +contextual
  | some isClass => simp [and_comm]

/-- A structure that is referred to by name, made a type that is held in place. -/
def point : TypeRef := (TypeRef.ofForm 1 (.named ⟨"Point", none, []⟩)).withClass false

/-- The store of this reference alone. -/
def points : TypeStore := (TypeStore.empty.add fun id => { point with id }).2

/-- Its view that allows absent values. -/
def optionalPoint : TypeRef := (points.request point .nullableNotUnwrapped).1

theorem optionalPoint_defaults_follow_kind : optionalPoint.Plain (some false) ∧
    optionalPoint.implied = .notNullable ∧ StoresNil optionalPoint.defaultValue ∧
      optionalPoint.isClass = false := by
  have hpoint : point.Plain (some false) := .withClass false (.ofForm 1 nofun)
  have hreach : points.Reachable :=
    .single (.add (t := point) (.withClass false (.ofForm 1 nofun)))
  have hplain : optionalPoint.Plain (some false) := hpoint.view _ hreach (.head _)
  obtain ⟨himplied, -, hplace⟩ := hplain.defaults_follow_kind
  obtain ⟨hstores, hclass⟩ := hplace.2 ⟨rfl, rfl, nofun⟩
  exact ⟨hplain, himplied, hstores, hclass⟩

/-- A type that is held in place starts out absent. -/
theorem point_starts_absent : point.Plain (some false) ∧ point.isClass = false ∧
    StoresNil point.defaultValue ∧ ¬(StoresNil point.defaultValue → point.isClass = true) := by
  have hstores : StoresNil point.defaultValue := ⟨_, rfl, rfl⟩
  exact ⟨.withClass false (.ofForm 1 nofun), rfl, hstores, fun h => nomatch h hstores⟩

end TypeRef

end SourcePrinter
