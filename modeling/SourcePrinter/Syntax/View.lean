import SourcePrinter.Syntax.TypeRef

/-! A store of type references, in which every reference is a node of its own and remembers the
views that were asked of it. A view with another nullability is a new node the first time and the
same node from then on. -/

namespace SourcePrinter

/-- A remembered view: the node asked, the nullability asked for, and the answer. -/
structure ViewSlot where
  asked : NodeId
  requested : Nullability
  view : TypeRef

/-- The type references made so far and their remembered views. -/
structure TypeStore where
  /-- The references, newest first. -/
  nodes : List TypeRef
  slots : List ViewSlot
  /-- The number of the next reference. -/
  next : NodeId

namespace TypeStore

/-- The store without references; their numbers start after the detached one. -/
def empty : TypeStore := ⟨[], [], NodeId.detached + 1⟩

/-- Makes a reference of a fresh number. -/
def add (s : TypeStore) (build : NodeId → TypeRef) : TypeRef × TypeStore :=
  let t := build s.next
  (t, { s with nodes := t :: s.nodes, next := s.next + 1 })

/-- The view that a reference remembers for a nullability. -/
def slot? (s : TypeStore) (t : TypeRef) (n : Nullability) : Option TypeRef :=
  (s.slots.find? fun slot => slot.asked == t.id && slot.requested == n).map ViewSlot.view

/-- Makes a view and remembers it. -/
def derive (s : TypeStore) (t : TypeRef) (n : Nullability) : TypeRef × TypeStore :=
  let view := { t.withExplicit n with id := s.next }
  (view, ⟨view :: s.nodes, ⟨t.id, n, view⟩ :: s.slots, s.next + 1⟩)

/-- Asks a reference for a view. It answers itself if it has the nullability already. -/
def request (s : TypeStore) (t : TypeRef) (n : Nullability) : TypeRef × TypeStore :=
  if t.satisfies n then (t, s)
  else
    match s.slot? t n with
    | some view => (view, s)
    | none => s.derive t n

/-- The number of views that a reference remembers. -/
def remembered (s : TypeStore) (t : TypeRef) : Nat :=
  (s.slots.filter fun slot => slot.asked == t.id).length

/-- A request that is satisfied answers the reference itself and changes nothing. -/
theorem request_of_satisfies {s : TypeStore} {t : TypeRef} {n : Nullability}
    (h : t.satisfies n = true) : s.request t n = (t, s) := by
  simp [request, h]

/-- A view that is remembered is answered and nothing changes. -/
theorem request_of_slot {s : TypeStore} {t view : TypeRef} {n : Nullability}
    (h : t.satisfies n = false) (hs : s.slot? t n = some view) : s.request t n = (view, s) := by
  simp [request, h, hs]

/-- After a request the view is remembered. -/
theorem slot?_request {s : TypeStore} {t : TypeRef} {n : Nullability}
    (h : t.satisfies n = false) : (s.request t n).2.slot? t n = some (s.request t n).1 := by
  cases hs : s.slot? t n with
  | some view => rw [request_of_slot h hs, hs]
  | none =>
    have : s.request t n = s.derive t n := by simp [request, h, hs]
    rw [this]
    simp [derive, slot?]

end TypeStore

/-- What can be made of a type reference. -/
inductive TypeStep where
  /-- A view with another nullability, which shares nodes. -/
  | view (n : Nullability)
  /-- A copy under a new number. -/
  | clone
  | withClass (isClass : Bool)
  | withExplicit (n : Nullability)
  | withDefaultValue (value : Option Expression)
  /-- A constant type, an array or a class type around the reference. -/
  | constant
  | array
  | kindOf

namespace TypeStep

/-- The view that allows absent values and makes access unwrap them. -/
def asNullable : TypeStep := .view .nullableNotUnwrapped

/-- The view that allows no absent value. -/
def asNotNullable : TypeStep := .view .notNullable

end TypeStep

namespace TypeStore

/-- Makes a reference out of another. -/
def step (s : TypeStore) (t : TypeRef) : TypeStep → TypeRef × TypeStore
  | .view n => s.request t n
  | .clone => s.add fun id => { t with id }
  | .withClass isClass => s.add fun id => { t.withClass isClass with id }
  | .withExplicit n => s.add fun id => { t.withExplicit n with id }
  | .withDefaultValue value => s.add fun id => { t.withDefaultValue value with id }
  | .constant => s.add fun id => .ofForm id (.constant t)
  | .array => s.add fun id => .ofForm id (.array t [] .dynamic)
  | .kindOf => s.add fun id => .ofForm id (.kindOf t)

end TypeStore

end SourcePrinter
