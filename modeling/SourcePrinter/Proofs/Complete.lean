import SourcePrinter.Proofs.Depth
import SourcePrinter.Proofs.Dialect
import SourcePrinter.Proofs.Runs

/-! No statement and no expression is lost: under the strict policy, a rendering of a statement that
succeeds has a span for each of its nodes outside type references. -/

namespace SourcePrinter

open Doc

/-! ### Events that show an outline -/

/-- Events that come to their end under the strict policy record the nodes of an outline outside
type references, also where a condition that no tree has is written without a span. -/
def Events.Shows (e : Events) (o : Outline) : Prop :=
  (∀ m ∈ o.own, m.key ≠ Language.endless.key) → e.failure true = none →
    ∀ synthetic : List NodeKey, (∀ k ∈ synthetic, k = Language.endless.key) →
      ∀ m ∈ o.own, m.key ∈ (e.recorded synthetic).labels

namespace Events.Shows

variable {e a b : Events} {o x y : Outline}

theorem of_own_nil (h : o.own = []) : e.Shows o := by
  intro _ _ synthetic _ m hm
  rw [h] at hm
  cases hm

theorem append (ha : a.Shows x) (hb : b.Shows y) : (a ++ b).Shows (.beside x y) := by
  intro hkeys hf synthetic hs m hm
  have hkeys : (∀ m ∈ x.own, m.key ≠ Language.endless.key) ∧
      ∀ m ∈ y.own, m.key ≠ Language.endless.key := List.forall_mem_append.1 hkeys
  rw [failure_append, Option.or_eq_none_iff] at hf
  rw [recorded_append, Forest.labels_append, List.mem_append]
  rcases List.mem_append.1 hm with hm | hm
  · exact .inl (ha hkeys.1 hf.1 synthetic hs m hm)
  · exact .inr (hb hkeys.2 hf.2 synthetic hs m hm)

/-- A node is recorded with what is recorded inside it. -/
theorem node (h : e.Shows o) (n : Node) : (Events.node n.key e .done).Shows (.node n o) := by
  -- Nothing in a type reference is counted.
  by_cases hn : n.key.category = .typeReference
  · exact .of_own_nil (if_pos hn)
  intro hkeys hf synthetic hs m hm
  have hown : (Outline.node n o).own = n :: o.own := if_neg hn
  rw [hown] at hkeys hm
  have hfirst : n.key ∉ synthetic := fun hk => hkeys n List.mem_cons_self (hs _ hk)
  have hinner := h (fun m hm => hkeys m (List.mem_cons_of_mem _ hm)) (Option.or_eq_none_iff.1 hf).1
    synthetic hs
  rw [recorded, if_neg hfirst, Forest.labels, List.mem_cons, List.mem_append]
  rcases List.mem_cons.1 hm with rfl | hm
  · exact .inl rfl
  · exact .inr (.inl (hinner m hm))

/-- Nothing but the condition that no tree has is without a span. -/
theorem hidden (h : e.Shows o) :
    (Events.hidden Language.endless.key e .done).Shows o := by
  intro hkeys hf synthetic hs m hm
  have hs' : ∀ k ∈ synthetic.insert Language.endless.key, k = Language.endless.key := by
    intro k hk
    rcases List.mem_insert_iff.1 hk with hk | hk
    · exact hk
    · exact hs k hk
  rw [recorded, Forest.labels_append, List.mem_append]
  exact .inl (h hkeys (Option.or_eq_none_iff.1 hf).1 _ hs' m hm)

end Events.Shows

/-! ### Rules that show their parts -/

/-- A context that shows the parts of some size. -/
def Context.Shows (c : Context) (k : Nat) : Prop :=
  ∀ p : Part, p.IsCode → p.outline.size ≤ k → ∀ scope, ((p.doc c).events scope).Shows p.outline

/-- What is put together from the whole of its parts shows them. -/
theorem Composed.shows {hooks : Hooks} {faults : Faults} {c alt : Context} {n : Node}
    {d d' : Doc} {o : Outline} {k : Nat} (h : Composed hooks faults True c alt n d d' o)
    (hc : c.Shows k) (ho : o.size ≤ k) (scope : Option TypeScope) :
    (d.events scope).Shows o := by
  induction h generalizing scope with
  | words _ hown => exact .of_own_nil (hown trivial)
  | typeGap => exact .of_own_nil rfl
  | part p hp => exact hc p (hp trivial) ho scope
  | beside _ _ ih ih' | before _ _ ih ih' =>
    rw [Outline.size] at ho
    exact .append (ih (by omega) scope) (ih' (by omega) scope)
  | trim _ ih =>
    have hd := ih ho scope
    rw [events_append, events_empty, Events.append_done] at hd
    exact hd
  | nested _ ih | aligned _ ih => exact ih ho scope
  | inside _ ih => exact ih ho _
  | perScope _ ih => exact ih scope ho scope
  | equal hxy _ ih =>
    intro hkeys hf synthetic hs m hm
    exact ih (hxy.size ▸ ho) scope (fun m hm => hkeys m ((hxy.own m).1 hm)) hf synthetic hs m
      ((hxy.own m).2 hm)
  | unordered _ ih => exact ih ho scope
  | within hwhole => exact absurd trivial hwhole
  | gap | fault =>
    -- These end a run under the strict policy, and this one has come to its end.
    intro _ hf
    cases hf
  | carried ht => exact .of_own_nil (if_pos ht)
  | @detached a a' b b' m o _ _ _ ih ih' =>
    have hb := ih' ho scope
    -- Of the two, only the condition is without a span; the rest belongs to the tree.
    refine Events.Shows.hidden fun hkeys hf synthetic hs j hj => ?_
    rw [events_append, Events.failure_append, Option.or_eq_none_iff] at hf
    rw [events_append, Events.recorded_append, Forest.labels_append, List.mem_append]
    exact .inr (hb hkeys hf.2 synthetic hs j hj)

namespace Language.Composes

variable {l : Language} {faults : Faults} {c : Context} {k : Nat}

/-- A rule shows the part that it writes. -/
theorem written_shows (h : l.Composes faults) (hl : c.Speaks l) (hc : c.Shows k) {d d' : Doc}
    {o : Outline} (hd : l.Written faults True c c d d' o) (hk : o.size ≤ k + 1)
    (scope : Option TypeScope) : (d.events scope).Shows o := by
  cases hd with
  | expression e =>
    have hrule : Composed l.hooks faults True c c (.expression e) _ _ _ := h.expression e hl
    rw [e.outline_eq, Outline.size] at hk
    rw [e.outline_eq]
    exact (hrule.shows hc (by omega) scope).node (.expression e)
  | typeRef => exact .of_own_nil (Outline.own_typeRef _)
  | node _ hrule =>
    rw [Outline.size] at hk
    exact (hrule.shows hc (by omega) scope).node _
  | ended _ hrule =>
    rw [Outline.size] at hk
    rw [events_append, events_node, events_lineStart, Events.append_done]
    exact (hrule.shows hc (by omega) scope).node _
  | guarded _ hwhole => exact absurd trivial hwhole

/-- A context shows the parts that it reaches. -/
theorem context_shows (h : l.Composes faults) (setting : Setting) (k : Nat) :
    (l.context setting k).Shows k := by
  induction k with
  | zero => exact fun p _ hk => absurd hk (Nat.not_le_of_gt p.size_pos)
  | succ k ih =>
    intro p hp hk scope
    rw [l.doc_context_succ]
    have hspeaks := l.context_speaks setting k
    exact h.written_shows hspeaks ih (h.written hspeaks fun _ => hp) hk scope

end Language.Composes

/-! ### Statements -/

/-- Under the strict policy, a rendering of a statement has a span for every statement, expression
and parameter in it that does not lie in a type reference. The number of the condition that no tree
has is not that of a node of the tree. -/
theorem Dialect.statement_complete (d : Dialect) {options : Options}
    (hs : options.strict = true) {s : Statement} (home : Option CodeUnit) {out : Rendering}
    (h : (Request.statement s home).render d.language options = .ok out)
    (hkeys : ∀ n ∈ s.outline.own, n.key ≠ Language.endless.key) :
    ∀ n ∈ s.outline.own, ∃ span, out.spans.get? n.key = some span := by
  intro n hn
  have hf := exists_render_iff.1 ⟨out, h⟩
  rw [hs] at hf
  have hsize : s.outline.size ≤ s.size := Nat.le_of_eq s.size_outline
  have hshows := d.composes.context_shows (.of options home false) s.size (.statement s) trivial
    hsize none
  have hmem := hshows hkeys hf [] nofun n hn
  exact Option.isSome_iff_exists.1 ((isSome_span_iff h n.key).2 hmem)

/-- An endless loop that stores a function with a parameter and its default value. -/
def Statement.handlerLoop : Statement :=
  let parameter : Parameter :=
    ⟨1, "x", none, .ofForm 1 (.predefined .int32), .value, some ⟨3, .integer 1 10⟩⟩
  let handler : AnonymousMethod := ⟨[parameter], none, [⟨4, .returning (some ⟨4, .selfReference⟩)⟩]⟩
  ⟨1, .infiniteLoop ⟨2, .block [
    ⟨3, .assignment ⟨1, .field ⟨none, "handler", false⟩⟩ ⟨2, .anonymousMethod handler⟩⟩,
    ⟨5, .breakLoop⟩]⟩⟩

theorem Statement.handlerLoop_complete :
    ∃ out, (Request.statement handlerLoop none).render .csharp
        { Options.initial with strict := true } = .ok out ∧
      (∀ n ∈ handlerLoop.outline.own, n.key ≠ Language.endless.key) ∧
      ∀ n ∈ handlerLoop.outline.own, ∃ span, out.spans.get? n.key = some span := by
  obtain ⟨out, hout⟩ : ∃ out, (Request.statement handlerLoop none).render .csharp
      { Options.initial with strict := true } = .ok out := ⟨_, rfl⟩
  have hkeys : ∀ n ∈ handlerLoop.outline.own, n.key ≠ Language.endless.key := by decide
  exact ⟨out, hout, hkeys, Dialect.statement_complete .csharp rfl none hout hkeys⟩

end SourcePrinter
