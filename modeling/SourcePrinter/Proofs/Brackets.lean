import SourcePrinter.Proofs.Constructs.Dialect

/-! Brackets: in what is rendered from a tree without brackets in its texts, every closing bracket
closes the innermost open one, and none stays open. -/

namespace SourcePrinter

open Doc

attribute [local simp] isInk isOpening isClosing Reading.isIdle

variable {d : Dialect} {setting : Setting} {x : Doc} {scope : Option TypeScope}
variable {opened next : List Char} {f : Forest Construct}

/-- A guard has no brackets but those of its condition. -/
theorem Dialect.guarded_brackets (d : Dialect) {c : Context} {condition : Option Expression}
    (hc : ∀ e ∈ condition, (c.expression e).Closed .brackets)
    (hx : x.read .brackets scope opened = some next) :
    (d.language.guarded c condition x).read .brackets scope opened = some next := by
  cases condition with
  | none => exact hx
  | some e =>
    have hcondition := hc e rfl scope
    have hhash : ∀ opened rest, Reading.brackets.read opened ('#' :: rest) =
        Reading.brackets.read opened rest := fun _ _ => rfl
    simp [d.guarded_some, hcondition, hx, hhash]

/-- The brackets of a document with constructs in it are read from one place to the other. -/
theorem Bears.read_brackets (h : Bears d setting .brackets x scope opened next f) :
    x.read .brackets scope opened = some next := by
  induction h with
  | code hx => exact hx
  | append _ _ ih ih' => rw [read_append, ih, Option.bind_some, ih']
  | nested _ ih | node _ ih | inside _ ih => exact ih
  | construct _ hcondition _ ih => exact d.guarded_brackets hcondition ih

/-- The brackets of a rendered text nest if no text in the tree has a bracket. -/
theorem Dialect.brackets_nest (d : Dialect) {options : Options} {r : Request} {out : Rendering}
    (h : r.render d.language options = .ok out)
    (ht : ∀ s ∈ r.texts, ∀ c ∈ s.toList, c ∉ "()[]\x7b\x7d".toList) :
    nesting [] out.text.toList = some [] := by
  have htexts : ∀ s ∈ r.texts, Reading.brackets.Overlooks s := by
    intro s hs c hc
    have hbracket := ht s hs c hc
    simp at hbracket
    simp [Reading.overlooks, hbracket]
  have hread : (r.document d.language options).read .brackets none [] = some [] :=
    (d.document_bears options htexts).read_brackets
  obtain ⟨_, q, hruns, rfl⟩ := runs_of_render h
  have hink : ink q.writer.text = (r.document d.language options).ink none :=
    hruns.ink_eq (d.composes.document_neat options r)
  have hnesting : nesting [] ((r.document d.language options).ink none) = some [] := read_ink hread
  rw [← hink] at hnesting
  exact (nesting_ink [] q.writer.text.toList).symm.trans hnesting

/-- The brackets around the parameters, the statements and the members of a class. -/
theorem TypeDefinition.runner_brackets_nest : ∃ out,
    (Request.definition runner none false).render (.swift true) .initial = .ok out ∧
      (∀ s ∈ (Request.definition runner none false).texts, ∀ c ∈ s.toList,
        c ∉ "()[]\x7b\x7d".toList) ∧
      nesting [] out.text.toList = some [] := by
  obtain ⟨out, hout⟩ : ∃ out,
      (Request.definition runner none false).render (.swift true) .initial = .ok out :=
    Doc.exists_render_iff.2 rfl
  have htexts : ∀ s ∈ (Request.definition runner none false).texts, ∀ c ∈ s.toList,
      c ∉ "()[]\x7b\x7d".toList := by
    have hnames : (Request.definition runner none false).texts = ["Runner", "count", "run"] := rfl
    rw [hnames]
    simp
  exact ⟨out, hout, htexts, Dialect.brackets_nest (.swift true) hout htexts⟩

end SourcePrinter
