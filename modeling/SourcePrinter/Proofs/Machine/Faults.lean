import SourcePrinter.Proofs.Faults
import SourcePrinter.Proofs.Machine.Range
import SourcePrinter.Proofs.Machine.Runs

/-! The errors of lenient renderings on a machine: a machine aborts a rendering or ends it as the
tree says, and a rendering in range is not aborted. -/

namespace SourcePrinter

/-- A rendering that a machine does not abort fails with an error if any rendering of the document
does. -/
theorem Doc.render?_eq_error_iff {m : Machine} {d : Doc} {options : Options}
    {a : Except RenderError Rendering} (h : d.render? m options = some a) (e : RenderError) :
    a = .error e ↔ d.render options = .error e := by
  obtain ⟨o, hrun, ha⟩ := Option.bind_eq_some_iff.1 h
  have hends : o.failure = (d.events none).failure options.strict := (run?_ends hrun).2
  rw [render_eq_error, ← hends]
  cases hf : o.failure with
  | none =>
    rw [hf] at ha
    cases ha
    exact iff_of_false nofun nofun
  | some e' =>
    rw [hf] at ha
    cases ha
    rw [Except.error.injEq, Option.some.injEq]

/-- A lenient rendering of a tree without faults succeeds, or is aborted, which happens out of range
only; and one that fails says what is wrong with a node of the tree. -/
theorem Dialect.lenient_render_on (m : Machine) (d : Dialect) {options : Options}
    (hs : options.strict = false) (r : Request) :
    ((∀ n ∈ r.outline.nodes, d.fault? n = none) →
        r.render? m d.language options = none ∧ ¬r.InRange d.language options ∨
          ∃ out, r.render? m d.language options = some (.ok out)) ∧
      ∀ e, r.render? m d.language options = some (.error e) →
        ∃ n ∈ r.outline.nodes, ∃ detail, d.fault? n = some detail ∧ e = .malformed detail := by
  obtain ⟨hsound, hfault⟩ := d.lenient_render hs r
  refine ⟨fun hall => ?_, fun e he => hfault e ((Doc.render?_eq_error_iff he e).1 rfl)⟩
  obtain ⟨out, hout⟩ := hsound hall
  cases h : r.render? m d.language options with
  | none => exact .inl ⟨rfl, Request.not_inRange_of_aborted h⟩
  | some a =>
    cases a with
    | ok out => exact .inr ⟨out, rfl⟩
    | error e =>
      have herror := (Doc.render?_eq_error_iff h e).1 rfl
      exact absurd (hout.symm.trans herror) nofun

theorem Request.lenient_returnInteger_on :
    (∃ out, (returnInteger 10).render? .checked .csharp .initial = some (.ok out)) ∧
      ∃ e, (returnInteger 8).render? .wrapping .csharp .initial = some (.error e) ∧
        ∃ n ∈ (returnInteger 8).outline.nodes, ∃ detail,
          CSharp.fault? n = some detail ∧ e = .malformed detail := by
  have sound : ∀ n ∈ (returnInteger 10).outline.nodes, Dialect.csharp.fault? n = none := by decide
  have hrange : (returnInteger 10).InRange .csharp .initial := by decide +kernel
  obtain ⟨e, he⟩ : ∃ e, (returnInteger 8).render? .wrapping .csharp .initial = some (.error e) :=
    ⟨_, rfl⟩
  exact ⟨((Dialect.lenient_render_on .checked .csharp rfl _).1 sound).resolve_left
    fun h => h.2 hrange, e, he, (Dialect.lenient_render_on .wrapping .csharp rfl _).2 e he⟩

/-- A switch whose one case has no labels: its statement, two levels deep, is the first that is
indented. -/
def Request.bareCase : Request :=
  .statementText ⟨1, .switch ⟨1, .nil⟩ [⟨[], [⟨2, .returning none⟩]⟩] none⟩

/-- There is no fault in the switch, but no text is as long as two levels of indentation that come
to half a word. -/
theorem Request.bareCase_aborts :
    (∀ n ∈ bareCase.outline.nodes, CSharp.fault? n = none) ∧
      ∀ m, bareCase.render? m .csharp
        { Options.initial with strict := false, tabSize := Machine.words / 4 } = none := by
  refine ⟨by decide, fun m => ?_⟩
  cases m <;> rfl

end SourcePrinter
