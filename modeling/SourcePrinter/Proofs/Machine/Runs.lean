import SourcePrinter.Doc.Machine
import SourcePrinter.Proofs.Events

/-! The steps of a run on a machine, and how it ends: if the machine does not abort, as the events
of the document say, whatever was made of the counts. -/

namespace SourcePrinter

/-! ### Steps of a run -/

namespace Doc

variable {m : Machine} {options : Options} {column : Nat} {p : Pass} {o : Outcome}

/-- A step of the writer is the last, and changes nothing but the writer. -/
theorem run?_step {f : Writer → Option Writer} (h : (p.mapWriter? f).map Outcome.done = some o) :
    ∃ w, f p.writer = some w ∧ o = .done { p with writer := w } := by
  obtain ⟨q, hq, rfl⟩ := Option.map_eq_some_iff.1 h
  obtain ⟨w, hw, hq⟩ := Option.bind_eq_some_iff.1 hq
  cases hq
  exact ⟨w, hw, rfl⟩

variable {first second body : Doc}

theorem run?_append (h : (append first second).run? m options column p = some o) :
    ∃ o₁, first.run? m options column p = some o₁ ∧
      (o₁.failure = none ∧ second.run? m options column o₁.pass = some o ∨
        o₁.failure ≠ none ∧ o = o₁) := by
  obtain ⟨o₁, hfirst, h⟩ := Option.bind_eq_some_iff.1 h
  refine ⟨o₁, hfirst, ?_⟩
  split at h
  · next hdone => exact .inl ⟨hdone, h⟩
  · next hfailed =>
    cases h
    exact .inr ⟨hfailed ▸ nofun, rfl⟩

theorem run?_nested (h : (nested body).run? m options column p = some o) :
    ∃ w o₁, p.writer.indent? m = some w ∧
      body.run? m options column { p with writer := w } = some o₁ ∧
      o = o₁.onDone (·.mapWriter (·.dedent)) := by
  obtain ⟨deeper, hdeeper, hrest⟩ := Option.bind_eq_some_iff.1 h
  obtain ⟨w, hw, hpure⟩ := Option.bind_eq_some_iff.1 hdeeper
  cases hpure
  obtain ⟨o₁, hbody, hlast⟩ := Option.bind_eq_some_iff.1 hrest
  cases hlast
  exact ⟨w, o₁, hw, hbody, rfl⟩

theorem run?_aligned (h : (aligned body).run? m options column p = some o) :
    ∃ w start owned o₁, p.writer.beginList? m = some (w, start, owned) ∧
      body.run? m options start { p with writer := w } = some o₁ ∧
      o = o₁.onDone (·.mapWriter (·.endList owned)) := by
  obtain ⟨⟨w, start, owned⟩, hbegin, h⟩ := Option.bind_eq_some_iff.1 h
  obtain ⟨o₁, hbody, h⟩ := Option.bind_eq_some_iff.1 h
  cases h
  exact ⟨w, start, owned, o₁, hbegin, hbody, rfl⟩

theorem run?_node {key : NodeKey} (h : (node key body).run? m options column p = some o) :
    ∃ pending o₁, body.run? m options column (p.enter key).2 = some o₁ ∧
      o = o₁.mapPass (·.leave { (p.enter key).1 with pending } o₁.failure.isSome) := by
  obtain ⟨entered, hentered, h⟩ := Option.bind_eq_some_iff.1 h
  obtain ⟨pending, -, hentered⟩ := Option.bind_eq_some_iff.1 hentered
  cases hentered
  obtain ⟨o₁, hbody, h⟩ := Option.bind_eq_some_iff.1 h
  cases h
  exact ⟨pending, o₁, hbody, rfl⟩

theorem run?_synthetic {key : NodeKey}
    (h : (synthetic key body).run? m options column p = some o) :
    ∃ o₁, body.run? m options column (p.markSynthetic key) = some o₁ ∧
      o = o₁.mapPass (·.unmarkSynthetic key (p.synthetic.contains key)) := by
  obtain ⟨o₁, hbody, h⟩ := Option.bind_eq_some_iff.1 h
  cases h
  exact ⟨o₁, hbody, rfl⟩

theorem run?_inside {scope : TypeScope} (h : (inside scope body).run? m options column p = some o) :
    ∃ o₁, body.run? m options column (p.pushScope scope) = some o₁ ∧
      o = o₁.mapPass Pass.popScope := by
  obtain ⟨o₁, hbody, h⟩ := Option.bind_eq_some_iff.1 h
  cases h
  exact ⟨o₁, hbody, rfl⟩

theorem run?_unsupported {gap : Gap} (h : (unsupported gap body).run? m options column p = some o) :
    options.strict = true ∧ o = ⟨p, some (.unsupported gap)⟩ ∨
      options.strict = false ∧ body.run? m options column p = some o := by
  rw [run?] at h
  split at h
  · next hstrict =>
    cases h
    exact .inl ⟨hstrict, rfl⟩
  · next hstrict => exact .inr ⟨Bool.not_eq_true _ ▸ hstrict, h⟩

end Doc

/-! ### Ends of runs -/

theorem Outcome.failure_onDone (o : Outcome) (f : Pass → Pass) :
    (o.onDone f).failure = o.failure := by
  unfold onDone
  split
  · next h => exact h.symm
  · rfl

/-- What is done at an end leaves what it leaves in any state. -/
theorem Outcome.read_onDone {α : Type} (read : Pass → α) (o : Outcome) {f : Pass → Pass}
    (hf : ∀ p, read (f p) = read p) : read (o.onDone f).pass = read o.pass := by
  unfold onDone
  split
  · exact hf _
  · rfl

@[simp] theorem Pass.scopes_unmarkSynthetic (p : Pass) (key : NodeKey) (marked : Bool) :
    (p.unmarkSynthetic key marked).scopes = p.scopes := by
  unfold unmarkSynthetic
  split <;> rfl

/-- At the end the place is in the types in which it was, and the end is that of the events. -/
theorem Doc.run?_ends {m : Machine} {options : Options} {d : Doc} {column : Nat} {p : Pass}
    {o : Outcome} (h : d.run? m options column p = some o) :
    o.pass.scopes = p.scopes ∧ o.failure = (d.events p.scope).failure options.strict := by
  induction d generalizing column p o with
  | empty | malformed =>
    cases h
    exact ⟨rfl, rfl⟩
  | text | newline | lineStart | typeGap | separator =>
    obtain ⟨w, -, rfl⟩ := run?_step h
    exact ⟨rfl, rfl⟩
  | append first second ih ih' =>
    obtain ⟨o₁, hfirst, hsecond⟩ := run?_append h
    obtain ⟨hscopes, hfailure⟩ := ih hfirst
    rw [events, Events.failure_append, ← hfailure]
    rcases hsecond with ⟨hdone, hsecond⟩ | ⟨hfailed, rfl⟩
    · obtain ⟨hscopes', hfailure'⟩ := ih' hsecond
      rw [hdone, Option.none_or, hfailure', Pass.scope, hscopes]
      exact ⟨hscopes'.trans hscopes, rfl⟩
    · refine ⟨hscopes, ?_⟩
      cases hf : o.failure with
      | none => exact absurd hf hfailed
      | some e => rfl
  | nested body ih =>
    obtain ⟨w, o₁, -, hbody, rfl⟩ := run?_nested h
    obtain ⟨hscopes, hfailure⟩ := ih hbody
    have hleft := o₁.read_onDone Pass.scopes (f := (·.mapWriter (·.dedent))) fun _ => rfl
    exact ⟨hleft.trans hscopes, (o₁.failure_onDone _).trans hfailure⟩
  | aligned body ih =>
    obtain ⟨w, start, owned, o₁, -, hbody, rfl⟩ := run?_aligned h
    obtain ⟨hscopes, hfailure⟩ := ih hbody
    have hleft := o₁.read_onDone Pass.scopes (f := (·.mapWriter (·.endList owned))) fun _ => rfl
    exact ⟨hleft.trans hscopes, (o₁.failure_onDone _).trans hfailure⟩
  | node key body ih =>
    obtain ⟨pending, o₁, hbody, rfl⟩ := run?_node h
    obtain ⟨hscopes, hfailure⟩ := ih hbody
    exact ⟨hscopes, hfailure.trans (Option.or_none).symm⟩
  | synthetic key body ih =>
    obtain ⟨o₁, hbody, rfl⟩ := run?_synthetic h
    obtain ⟨hscopes, hfailure⟩ := ih hbody
    rw [Pass.scope_markSynthetic] at hfailure
    rw [Pass.scopes_markSynthetic] at hscopes
    have hleft := o₁.pass.scopes_unmarkSynthetic key (p.synthetic.contains key)
    exact ⟨hleft.trans hscopes, hfailure.trans (Option.or_none).symm⟩
  | inside scope body ih =>
    obtain ⟨o₁, hbody, rfl⟩ := run?_inside h
    obtain ⟨hscopes, hfailure⟩ := ih hbody
    exact ⟨congrArg List.tail hscopes, hfailure⟩
  | perScope body ih => exact ih _ h
  | unsupported gap remark ih =>
    rw [events, Events.failure]
    rcases run?_unsupported h with ⟨hstrict, rfl⟩ | ⟨hstrict, hremark⟩
    · exact ⟨rfl, (if_pos hstrict).symm⟩
    · obtain ⟨hscopes, hfailure⟩ := ih hremark
      rw [hstrict] at hfailure ⊢
      exact ⟨hscopes, hfailure.trans (Option.or_none).symm⟩

end SourcePrinter
