import SourcePrinter.Proofs.Dialect
import SourcePrinter.Proofs.Runs

/-! The errors of lenient renderings: all of them are faults of nodes. -/

namespace SourcePrinter

/-- A lenient rendering in which no gap is an error ends with the fault of a node, or succeeds. -/
theorem Follows.render {hooks : Hooks} {faults : Faults} {n : Node} {d : Doc} {o : Outline}
    {options : Options} (h : Follows hooks faults n (d.events none) o)
    (hs : options.strict = false) :
    (∃ out, d.render options = .ok out) ∨
      ∃ m ∈ n :: o.nodes, ∃ detail, faults m detail ∧
        d.render options = .error (.malformed detail) := by
  cases hd : d.render options with
  | ok out => exact .inl ⟨out, rfl⟩
  | error e =>
    have hf := Doc.render_eq_error.1 hd
    rw [hs] at hf
    cases e with
    | unsupported g => exact absurd hf (Events.lenient_ne_unsupported _ g)
    | malformed detail =>
      obtain ⟨m, hm, hfault⟩ := h.fault_of_failure hf
      exact .inr ⟨m, hm, detail, hfault, rfl⟩

/-- A lenient rendering of a tree without faults succeeds, and one that fails says what is wrong
with a node of the tree. -/
theorem Dialect.lenient_render (d : Dialect) {options : Options} (hs : options.strict = false)
    (r : Request) :
    ((∀ n ∈ r.outline.nodes, d.fault? n = none) →
        ∃ out, r.render d.language options = .ok out) ∧
      ∀ e, r.render d.language options = .error e →
        ∃ n ∈ r.outline.nodes, ∃ detail, d.fault? n = some detail ∧ e = .malformed detail := by
  have hfollows : Follows d.language.hooks (.of d.fault?) (.expression Language.endless)
      ((r.document d.language options).events none) r.outline := d.obeys.request options r
  have sound : d.fault? (.expression Language.endless) = none := by cases d <;> rfl
  rcases hfollows.render hs with ⟨out, hout⟩ | ⟨n, hn, detail, hfault, herror⟩
  · refine ⟨fun _ => ⟨out, hout⟩, fun e he => ?_⟩
    rw [Request.render, hout] at he
    cases he
  · have hn : n ∈ r.outline.nodes := by
      rcases List.mem_cons.1 hn with rfl | hn
      · exact absurd (sound.symm.trans hfault) nofun
      · exact hn
    refine ⟨fun hall => absurd ((hall n hn).symm.trans hfault) nofun, fun e he => ?_⟩
    rw [Request.render, herror] at he
    exact ⟨n, hn, detail, hfault, (Except.error.inj he).symm⟩

/-- A statement that returns an integer in some base. -/
def Request.returnInteger (base : Nat) : Request :=
  .statement ⟨1, .returning (some ⟨1, .integer 9 base⟩)⟩ none

end SourcePrinter
