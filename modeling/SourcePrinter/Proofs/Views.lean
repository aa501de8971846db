import Mathlib.Logic.Relation
import SourcePrinter.Syntax.Same
import SourcePrinter.Syntax.View

/-! Stores of type references over time. References are made by the constructors and the changes of
single facts, and views of them are asked for in any order. A remembered view stays what it is, so
that a request has one answer for good, and no request touches a reference that is there. -/

namespace SourcePrinter

/-- The references that a kind of type is made of. -/
def TypeForm.parts : TypeForm → List TypeRef
  | .named type => type.genericArguments
  | .pointer target _ | .kindOf target | .constant target => [target]
  | .array element _ _ | .sequence element => [element]
  | .dictionary key value => [key, value]
  | .tuple members => members
  | .inlineBlock block => block.parameters ++ block.returnType.toList
  | .predefined _ | .range .. | .unknown => []

/-! ### Nullabilities -/

namespace TypeRef

variable {t : TypeRef} {n : Nullability}

/-- Some nullability applies if one is implied. -/
theorem effective_ne_default (h : t.implied ≠ .default) : t.effective ≠ .default := by
  unfold effective
  split
  · exact h
  · assumption

/-- A request changes nothing if it is for the nullability that applies, or for none of its own
where there is none. -/
theorem satisfies_iff (h : t.implied ≠ .default) : t.satisfies n = true ↔
    n = t.effective ∨ n = .default ∧ t.explicit = .default := by
  have he := effective_ne_default h
  unfold satisfies
  by_cases hn : n = .default
  · subst hn
    simp [Ne.symm he]
  · simp [hn]

/-- A view satisfies the request that it answers. -/
theorem satisfies_of_explicit (h : t.explicit = n) : t.satisfies n = true := by
  subst h
  unfold satisfies effective
  by_cases hn : t.explicit = .default <;> simp [hn]

end TypeRef

/-- The nullability implied by a kind of type is a real one if that of every part is. -/
theorem TypeForm.implied_ne_default {form : TypeForm} (h : ∀ p ∈ form.parts, p.implied ≠ .default)
    (isClass : Bool) : form.implied isClass ≠ .default := by
  cases form with
  | constant target => exact TypeRef.effective_ne_default (h target (List.mem_singleton_self _))
  | unknown => exact nofun
  | named | predefined | pointer | array | dictionary | tuple | sequence | kindOf | inlineBlock
  | range => cases isClass <;> exact nofun

/-! ### Histories -/

namespace TypeStore

/-- What the constructors and the changes make of the references in a store, before it has a
number in the store. -/
inductive Builds (s : TypeStore) : TypeRef → Prop where
  | ofForm (id : NodeId) {form : TypeForm} :
    (∀ p ∈ form.parts, p ∈ s.nodes) → Builds s (.ofForm id form)
  | copy {t : TypeRef} : t ∈ s.nodes → Builds s t
  | withClass {t : TypeRef} (isClass : Bool) : Builds s t → Builds s (t.withClass isClass)
  | withExplicit {t : TypeRef} (n : Nullability) : Builds s t → Builds s (t.withExplicit n)
  | withDefaultValue {t : TypeRef} (value : Option Expression) :
    Builds s t → Builds s (t.withDefaultValue value)

/-- One reference is made, or one view is asked for. -/
inductive Grows : TypeStore → TypeStore → Prop where
  | add {s : TypeStore} {t : TypeRef} : s.Builds t → Grows s (s.add fun id => { t with id }).2
  | request {s : TypeStore} {t : TypeRef} (n : Nullability) :
    t ∈ s.nodes → Grows s (s.request t n).2

/-- The store is a later state of another. -/
def Becomes (s s' : TypeStore) : Prop := Relation.ReflTransGen Grows s s'

/-- The store came about from the empty one. -/
def Reachable (s : TypeStore) : Prop := empty.Becomes s

/-- The node of a number. -/
def node? (s : TypeStore) (id : NodeId) : Option TypeRef := s.nodes.find? (·.id == id)

/-- The nodes of two numbers say the same. -/
def equal? (s : TypeStore) (i j : NodeId) : Option Bool :=
  (s.node? i).bind fun t => (s.node? j).map t.same

/-- Whatever is made of a reference in a store is one such change of the store. -/
theorem step_grows {s : TypeStore} {t : TypeRef} (ht : t ∈ s.nodes) (change : TypeStep) :
    s.Grows (s.step t change).2 := by
  have hpart : ∀ p ∈ [t], p ∈ s.nodes := fun p hp => List.mem_singleton.1 hp ▸ ht
  cases change with
  | view n => exact .request n ht
  | clone => exact .add (.copy ht)
  | withClass isClass => exact .add (.withClass isClass (.copy ht))
  | withExplicit n => exact .add (.withExplicit n (.copy ht))
  | withDefaultValue value => exact .add (.withDefaultValue value (.copy ht))
  | constant => exact .add (t := .ofForm 0 (.constant t)) (.ofForm 0 hpart)
  | array => exact .add (t := .ofForm 0 (.array t [] .dynamic)) (.ofForm 0 hpart)
  | kindOf => exact .add (t := .ofForm 0 (.kindOf t)) (.ofForm 0 hpart)

/-! ### What a request does -/

section

variable {s s' s'' : TypeStore} {t u : TypeRef} {n : Nullability}

/-- A request is satisfied, or a view is remembered, or one is made. -/
theorem request_cases (s : TypeStore) (t : TypeRef) (n : Nullability) :
    (t.satisfies n = true ∧ s.request t n = (t, s)) ∨
    (t.satisfies n = false ∧ ∃ view, s.slot? t n = some view ∧ s.request t n = (view, s)) ∨
    (t.satisfies n = false ∧ s.slot? t n = none ∧ s.request t n = s.derive t n) := by
  cases hsat : t.satisfies n with
  | true => exact .inl ⟨rfl, request_of_satisfies hsat⟩
  | false =>
    cases hslot : s.slot? t n with
    | some view => exact .inr (.inl ⟨rfl, view, rfl, request_of_slot hsat hslot⟩)
    | none => exact .inr (.inr ⟨rfl, rfl, by simp [request, hsat, hslot]⟩)

/-- A remembered view stands in a slot for the node and the nullability. -/
theorem mem_of_slot? {view : TypeRef} (h : s.slot? t n = some view) :
    ∃ slot ∈ s.slots, slot.asked = t.id ∧ slot.requested = n ∧ slot.view = view := by
  obtain ⟨slot, hfind, hview⟩ := Option.map_eq_some_iff.1 h
  have hkey := List.find?_some hfind
  simp only [Bool.and_eq_true, beq_iff_eq] at hkey
  exact ⟨slot, List.mem_of_find?_eq_some hfind, hkey.1, hkey.2, hview⟩

/-! ### The invariant -/

/-- Numbers tell nodes apart and are all below the next one; the parts of a node are nodes, and its
implied nullability is a real one; a remembered view is a node that differs from the node asked in
its number and its nullability only. -/
structure Sound (s : TypeStore) : Prop where
  below : ∀ t ∈ s.nodes, t.id < s.next
  distinct : ∀ t ∈ s.nodes, ∀ u ∈ s.nodes, t.id = u.id → t = u
  parts : ∀ t ∈ s.nodes, ∀ p ∈ t.form.parts, p ∈ s.nodes
  implied : ∀ t ∈ s.nodes, t.implied ≠ .default
  slots : ∀ slot ∈ s.slots, slot.view ∈ s.nodes ∧ ∃ t ∈ s.nodes, t.id = slot.asked ∧
    slot.view = { t.withExplicit slot.requested with id := slot.view.id }

namespace Sound

theorem empty : empty.Sound where
  below := nofun
  distinct := nofun
  parts := nofun
  implied := nofun
  slots := nofun

/-- A node under the next number keeps the store sound, with or without a slot for it. -/
theorem cons (h : s.Sound) {slots : List ViewSlot} (hid : t.id = s.next)
    (hparts : ∀ p ∈ t.form.parts, p ∈ s.nodes) (himplied : t.implied ≠ .default)
    (hslots : ∀ slot ∈ slots, slot ∈ s.slots ∨ slot.view = t ∧ ∃ u ∈ s.nodes, u.id = slot.asked ∧
      t = { u.withExplicit slot.requested with id := t.id }) :
    Sound ⟨t :: s.nodes, slots, s.next + 1⟩ where
  below := by
    rw [List.forall_mem_cons]
    exact ⟨hid ▸ Nat.lt_succ_self s.next, fun u hu => Nat.lt_succ_of_lt (h.below u hu)⟩
  distinct := by
    -- All nodes of the store have smaller numbers.
    have hnew : ∀ u ∈ s.nodes, u.id ≠ t.id := fun u hu => hid ▸ Nat.ne_of_lt (h.below u hu)
    intro u hu v hv huv
    cases hu with
    | head =>
      cases hv with
      | head => rfl
      | tail _ hv => exact absurd huv.symm (hnew v hv)
    | tail _ hu =>
      cases hv with
      | head => exact absurd huv (hnew u hu)
      | tail _ hv => exact h.distinct u hu v hv huv
  parts := by
    rw [List.forall_mem_cons]
    exact ⟨fun p hp => .tail t (hparts p hp), fun u hu p hp => .tail t (h.parts u hu p hp)⟩
  implied := by
    rw [List.forall_mem_cons]
    exact ⟨himplied, h.implied⟩
  slots := by
    intro slot hslot
    rcases hslots slot hslot with hold | ⟨hview, u, hu, hasked, ht⟩
    · obtain ⟨hview, u, hu, hrest⟩ := h.slots slot hold
      exact ⟨.tail t hview, u, .tail t hu, hrest⟩
    · rw [hview]
      exact ⟨.head _, u, .tail t hu, hasked, ht⟩

/-- The node of a number is the one with that number. -/
theorem node?_of_mem (h : s.Sound) (ht : t ∈ s.nodes) : s.node? t.id = some t := by
  cases hfind : s.node? t.id with
  | none =>
    have hno := List.find?_eq_none.1 hfind t ht
    exact absurd (beq_self_eq_true t.id) hno
  | some u =>
    have hid := List.find?_some (p := fun u : TypeRef => u.id == t.id) hfind
    rw [h.distinct u (List.mem_of_find?_eq_some hfind) t ht (beq_iff_eq.1 hid)]

/-- A remembered view of a node is a node that differs in its number and its nullability only. -/
theorem of_slot? (h : s.Sound) (ht : t ∈ s.nodes) {view : TypeRef}
    (hv : s.slot? t n = some view) :
    view ∈ s.nodes ∧ view = { t.withExplicit n with id := view.id } := by
  obtain ⟨slot, hslot, hasked, rfl, rfl⟩ := mem_of_slot? hv
  obtain ⟨hmem, u, hu, hid, hview⟩ := h.slots slot hslot
  rw [h.distinct u hu t ht (hid.trans hasked)] at hview
  exact ⟨hmem, hview⟩

/-- What is made of the nodes of a sound store has nodes as parts and implies a real
nullability. -/
theorem of_builds (h : s.Sound) (hb : s.Builds t) :
    (∀ p ∈ t.form.parts, p ∈ s.nodes) ∧ t.implied ≠ .default := by
  have hform : ∀ {form : TypeForm}, (∀ p ∈ form.parts, p ∈ s.nodes) →
      ∀ isClass, form.implied isClass ≠ .default :=
    fun hp => TypeForm.implied_ne_default fun p hm => h.implied p (hp p hm)
  induction hb with
  | ofForm id hp => exact ⟨hp, hform hp _⟩
  | copy ht => exact ⟨h.parts _ ht, h.implied _ ht⟩
  | withClass isClass _ ih => exact ⟨ih.1, hform ih.1 isClass⟩
  | withExplicit _ _ ih | withDefaultValue _ _ ih => exact ih

end Sound

/-- Nodes stay, and so does the answer that a slot holds. -/
structure Extends (s s' : TypeStore) : Prop where
  nodes : ∀ t ∈ s.nodes, t ∈ s'.nodes
  slots : ∀ {t n view}, s.slot? t n = some view → s'.slot? t n = some view

theorem Extends.refl (s : TypeStore) : s.Extends s := ⟨fun _ h => h, id⟩

theorem Extends.trans (h : s.Extends s') (h' : s'.Extends s'') : s.Extends s'' :=
  ⟨fun t ht => h'.nodes t (h.nodes t ht), h'.slots ∘ h.slots⟩

/-! ### Steps -/

/-- A new slot takes the place of no other, as it is made only where there is none. -/
theorem derive_extends (h : s.slot? t n = none) : s.Extends (s.derive t n).2 where
  nodes u hu := .tail _ hu
  slots := by
    intro u m view hview
    have hother : ¬(t.id = u.id ∧ n = m) := by
      rintro ⟨hid, rfl⟩
      rw [slot?, hid] at h
      rw [slot?, h] at hview
      cases hview
    rw [← hview]
    simp only [slot?, derive, List.find?_cons]
    split
    · next hkey => simp_all
    · rfl

theorem request_extends (s : TypeStore) (t : TypeRef) (n : Nullability) :
    s.Extends (s.request t n).2 := by
  rcases request_cases s t n with ⟨-, h⟩ | ⟨-, _, -, h⟩ | ⟨-, hslot, h⟩
  · rw [h]
    exact .refl s
  · rw [h]
    exact .refl s
  · rw [h]
    exact derive_extends hslot

theorem Sound.request (h : s.Sound) (ht : t ∈ s.nodes) (n : Nullability) :
    (s.request t n).2.Sound := by
  rcases request_cases s t n with ⟨-, hr⟩ | ⟨-, _, -, hr⟩ | ⟨-, -, hr⟩
  · rwa [hr]
  · rwa [hr]
  · rw [hr]
    refine h.cons rfl (h.parts t ht) (h.implied t ht) fun slot hslot => ?_
    rcases List.mem_cons.1 hslot with rfl | hold
    · exact .inr ⟨rfl, t, ht, rfl, rfl⟩
    · exact .inl hold

theorem Grows.sound (h : s.Grows s') (hs : s.Sound) : s'.Sound := by
  cases h with
  | add hb => exact hs.cons rfl (hs.of_builds hb).1 (hs.of_builds hb).2 fun _ => .inl
  | request n ht => exact hs.request ht n

theorem Grows.extends (h : s.Grows s') : s.Extends s' := by
  cases h with
  | add => exact ⟨fun _ ht => .tail _ ht, id⟩
  | request n _ => exact request_extends s _ n

/-! ### Histories -/

theorem Becomes.extends (h : s.Becomes s') : s.Extends s' := by
  induction h with
  | refl => exact .refl s
  | tail _ hstep ih => exact ih.trans hstep.extends

theorem Reachable.sound (h : s.Reachable) : s.Sound := by
  induction h with
  | refl => exact .empty
  | tail _ hstep ih => exact hstep.sound ih

/-- What a request answers is a node of the store after it: the reference itself if the request is
satisfied, else one that differs in its number and its nullability only. -/
theorem Sound.answer (h : s.Sound) (ht : t ∈ s.nodes) (n : Nullability) :
    (s.request t n).1 ∈ (s.request t n).2.nodes ∧
    (t.satisfies n = false →
      (s.request t n).1 = { t.withExplicit n with id := (s.request t n).1.id }) := by
  rcases request_cases s t n with ⟨hsat, hr⟩ | ⟨-, view, hview, hr⟩ | ⟨-, -, hr⟩
  · rw [hr, hsat]
    exact ⟨ht, nofun⟩
  · rw [hr]
    exact ⟨(h.of_slot? ht hview).1, fun _ => (h.of_slot? ht hview).2⟩
  · rw [hr]
    exact ⟨.head _, fun _ => rfl⟩

/-- The answer to a request satisfies it. -/
theorem Sound.satisfies_answer (h : s.Sound) (ht : t ∈ s.nodes) (n : Nullability) :
    (s.request t n).1.satisfies n = true := by
  cases hsat : t.satisfies n with
  | true => rwa [request_of_satisfies hsat]
  | false => exact TypeRef.satisfies_of_explicit (by rw [(h.answer ht n).2 hsat]; rfl)

/-- The nullability asked for is in force for the answer, or the implied one if that was asked
for. -/
theorem Sound.effective_answer (h : s.Sound) (ht : t ∈ s.nodes) (n : Nullability) :
    (s.request t n).1.effective = if n = .default then t.implied else n := by
  rw [← t.effective_view n]
  cases hsat : t.satisfies n with
  | true =>
    rw [request_of_satisfies hsat, TypeRef.view, if_pos hsat]
  | false =>
    rw [(h.answer ht n).2 hsat]
    rw [TypeRef.view, hsat]
    rfl

/-- A request has the same answer in every later state of the store, and changes nothing there. -/
theorem request_again (h : (s.request t n).2.Becomes s') :
    s'.request t n = ((s.request t n).1, s') := by
  cases hsat : t.satisfies n with
  | true => rw [request_of_satisfies hsat, request_of_satisfies hsat]
  | false => exact request_of_slot hsat (h.extends.slots (slot?_request hsat))

end

/-- Views of references, in every store that came about by making references and asking for views,
and for every node and nullability: a request that is satisfied answers the node itself and changes
nothing; any other answers a node with the nullability asked for and all else as in the node asked;
whatever happens in between, the same request has the same answer, and the answer is its own view
for that nullability; no node changes, nor whether two of them say the same; the nullability asked
for is in force, or the implied one if that was asked for, and some nullability is in force for
every node. -/
theorem views_are_shared {s : TypeStore} (hs : s.Reachable) {t : TypeRef} (ht : t ∈ s.nodes)
    (n : Nullability) :
    let satisfied := n = t.effective ∨ n = .default ∧ t.explicit = .default
    let view := (s.request t n).1
    let after := (s.request t n).2
    (satisfied → view = t ∧ after = s) ∧
    (¬satisfied → view ∈ after.nodes ∧ view.explicit = n ∧ view.form = t.form ∧
      view.implied = t.implied ∧ view.isClass = t.isClass ∧
      view.defaultValue = t.defaultValue) ∧
    (∀ s', after.Becomes s' → s'.request t n = (view, s')) ∧
    ((∀ u ∈ s.nodes, s.node? u.id = some u ∧ after.node? u.id = some u) ∧
      ∀ u ∈ s.nodes, ∀ v ∈ s.nodes, after.equal? u.id v.id = s.equal? u.id v.id) ∧
    (∀ s', after.Becomes s' → s'.request view n = (view, s')) ∧
    (view.effective = if n = .default then t.implied else n) ∧
    ∀ u ∈ after.nodes, u.effective ≠ .default := by
  intro satisfied view after
  have hsound := hs.sound
  have hafter : after.Sound := hsound.request ht n
  have hsat : t.satisfies n = true ↔ satisfied := TypeRef.satisfies_iff (hsound.implied t ht)
  have hanswer := hsound.answer ht n
  have hnode : ∀ u ∈ s.nodes, after.node? u.id = some u := fun u hu =>
    hafter.node?_of_mem ((request_extends s t n).nodes u hu)
  refine ⟨fun h => ?_, fun h => ?_, fun s' h => request_again h, ⟨fun u hu => ?_, ?_⟩,
    fun s' h => ?_, hsound.effective_answer ht n, fun u hu => ?_⟩
  · have hr := request_of_satisfies (s := s) (hsat.2 h)
    exact ⟨congrArg Prod.fst hr, congrArg Prod.snd hr⟩
  · have hview : view = { t.withExplicit n with id := view.id } :=
      hanswer.2 (Bool.eq_false_iff.2 fun h' => h (hsat.1 h'))
    refine ⟨hanswer.1, ?_⟩
    rw [hview]
    exact ⟨rfl, rfl, rfl, rfl, rfl⟩
  · exact ⟨hsound.node?_of_mem hu, hnode u hu⟩
  · intro u hu v hv
    simp only [equal?, hnode u hu, hnode v hv, hsound.node?_of_mem hu, hsound.node?_of_mem hv]
  · exact request_of_satisfies (hsound.satisfies_answer ht n)
  · exact TypeRef.effective_ne_default (hafter.implied u hu)

/-- A type referred to by name. -/
def widget : TypeRef := .ofForm 1 (.named ⟨"Widget", none, []⟩)

/-- Its constant type. -/
def constantWidget : TypeRef := .ofForm 2 (.constant widget)

/-- The store of the named type alone. -/
def oneWidget : TypeStore := (empty.add fun id => .ofForm id (.named ⟨"Widget", none, []⟩)).2

/-- The store of both, after the named type was asked for a view. -/
def widgets : TypeStore :=
  ((oneWidget.step widget .constant).2.request widget .nullableNotUnwrapped).2

theorem widgets_views_are_shared : widgets.Reachable ∧ constantWidget ∈ widgets.nodes ∧
    (widgets.request constantWidget .notNullable).1.effective = .notNullable ∧
    ∀ s', (widgets.request constantWidget .notNullable).2.Becomes s' →
      s'.request constantWidget .notNullable =
        ((widgets.request constantWidget .notNullable).1, s') := by
  have hnamed : empty.Grows oneWidget := .add (t := widget) (.ofForm 1 nofun)
  have hconstant : oneWidget.Grows (oneWidget.step widget .constant).2 :=
    step_grows (.head _) .constant
  have hview : (oneWidget.step widget .constant).2.Grows widgets :=
    .request .nullableNotUnwrapped (.tail _ (.head _))
  have hreach : widgets.Reachable :=
    ((Relation.ReflTransGen.single hnamed).tail hconstant).tail hview
  have hmem : constantWidget ∈ widgets.nodes := .tail _ (.head _)
  obtain ⟨-, -, hagain, -, -, heffective, -⟩ := views_are_shared hreach hmem .notNullable
  exact ⟨hreach, hmem, heffective, hagain⟩

end TypeStore

end SourcePrinter
