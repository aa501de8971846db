import SourcePrinter.Proofs.Lists

/-! Documents in one line. Their moves do not depend on the type around the place, and as long as no
separator breaks its line they add their texts to it, whatever stands there before. What such a
document adds in the middle of a line is what it writes by itself. -/

namespace SourcePrinter

/-! ### Moves -/

/-- The characters that a move writes in the line. -/
def Move.chars : Move → List Char
  | write s | separator s => s.toList
  | _ => []

theorem Move.lineFeed_not_mem_chars {move : Move} (h : move.IsFlat) : '\n' ∉ move.chars := by
  cases move with
  | write s => exact h
  | separator s => exact h.line
  | newline | lineStart | typeGap | indent | dedent => exact h.elim
  | gap | fault => exact List.not_mem_nil

/-- Where no indentation is due, a text in one line is added as it is. -/
theorem Writer.writeChars_adds {w : Writer} {text : List Char} (hw : w.due = [])
    (ht : '\n' ∉ text) : w.Adds text (w.writeChars text) ∧ (w.writeChars text).due = [] := by
  by_cases hne : text = []
  · subst hne
    exact ⟨.refl w, hw⟩
  · obtain ⟨added, hadds⟩ := w.writeChars_grows text
    have htext := writeChars_text (w := w) ht hne
    rw [hw, List.append_nil, hadds.text] at htext
    have hbegun : (w.writeChars text).atLineStart = false := by
      rw [atLineStart_writeChars w ht, List.isEmpty_eq_false_iff.2 hne, Bool.and_false]
    exact ⟨List.append_cancel_left htext ▸ hadds.toAdds, due_of_begun hbegun⟩

section

variable {options : Options} {moves : List Move} {w v : Writer}

theorem Move.apply_adds (options : Options) {move : Move} (h : move.IsFlat) (hw : w.due = []) :
    w.Adds move.chars (move.apply options w) ∧ (move.apply options w).due = [] := by
  cases move with
  | write s => exact Writer.writeChars_adds hw h
  | separator s => exact Writer.writeChars_adds hw h.line
  | newline | lineStart | typeGap | indent | dedent => exact h.elim
  | gap | fault => exact ⟨.refl w, hw⟩

/-- Moves in the line add what they write. -/
theorem perform_adds (h : ∀ move ∈ moves, move.IsFlat) (hw : w.due = []) :
    w.Adds (moves.flatMap Move.chars) (perform options moves w) := by
  induction moves generalizing w with
  | nil => exact .refl w
  | cons move more ih =>
    rw [List.forall_mem_cons] at h
    obtain ⟨hadds, hdue⟩ := Move.apply_adds options h.1 hw
    exact hadds.trans (ih h.2 hdue)

/-- Moves in the line that break no line break none further to the left. -/
theorem unbroken_of_le (h : ∀ move ∈ moves, move.IsFlat) (hw : w.due = []) (hv : v.due = [])
    (hi : v.indentation = w.indentation)
    (hc : v.position.virtualColumn ≤ w.position.virtualColumn) (hu : Unbroken options moves w) :
    Unbroken options moves v := by
  induction moves generalizing w v with
  | nil => trivial
  | cons move more ih =>
    rw [List.forall_mem_cons] at h
    obtain ⟨hwadds, hwdue⟩ := Move.apply_adds options h.1 hw
    obtain ⟨hvadds, hvdue⟩ := Move.apply_adds options h.1 hv
    have hline := Move.lineFeed_not_mem_chars h.1
    refine ⟨?_, ih h.2 hwdue hvdue ?_ ?_ hu.2⟩
    · have hfits := hu.1
      cases move with
      | separator s =>
        rw [Move.fits_separator] at hfits ⊢
        omega
      | _ => trivial
    · rw [hvadds.indentation, hwadds.indentation, hi]
    · rw [hvadds.position, hwadds.position, Position.virtualColumn_scan _ _ hline,
        Position.virtualColumn_scan _ _ hline, hi]
      omega

end

/-! ### Documents -/

namespace Doc

/-- The document has texts in one line, lists and nodes, and changes nothing around it. -/
def InLine : Doc → Prop
  | empty | malformed _ => True
  | text s => '\n' ∉ s.toList
  | separator s => IsSeparator s
  | append first second => first.InLine ∧ second.InLine
  | aligned body | node _ body | synthetic _ body | unsupported _ body => body.InLine
  | newline | lineStart | typeGap | nested _ | inside .. | perScope _ => False

section

variable {a b d : Doc} {s : String}

@[simp] theorem inLine_empty : empty.InLine := trivial

@[simp] theorem inLine_malformed (detail : String) : (malformed detail).InLine := trivial

@[simp] theorem inLine_text : (text s).InLine ↔ '\n' ∉ s.toList := .rfl

@[simp] theorem inLine_append : (a ++ b).InLine ↔ a.InLine ∧ b.InLine := .rfl

end

namespace InLine

variable {d : Doc} {options : Options}

theorem compositional : Compositional InLine where
  empty := trivial
  append _ _ h h' := ⟨h, h'⟩

theorem when (h : d.InLine) (condition : Bool) : (Doc.when condition d).InLine :=
  compositional.when h condition

theorem whenSome {α : Type} {value : Option α} {doc : α → Doc} (h : ∀ a ∈ value, (doc a).InLine) :
    (Doc.whenSome value doc).InLine :=
  compositional.whenSome h

theorem commaList {α : Type} {items : List α} {doc : α → Doc} (h : ∀ a ∈ items, (doc a).InLine) :
    (Doc.commaList (items.map doc)).InLine := by
  have hcomma : IsSeparator ", " := ⟨by decide, ',', by decide, by decide⟩
  exact compositional.separated (fun _ h => h) hcomma (List.forall_mem_map.2 h)

/-- The moves do not depend on the type around the place. -/
theorem moves_eq (h : d.InLine) (scope : Option TypeScope) : d.moves scope = d.moves none := by
  induction d with
  | empty | text | separator | malformed => rfl
  | append first second ih ih' => exact congrArg₂ (· ++ ·) (ih h.1) (ih' h.2)
  | aligned body ih | node _ body ih | synthetic _ body ih => exact ih h
  | unsupported gap body ih => exact congrArg (Move.gap gap :: ·) (ih h)
  | newline | lineStart | typeGap | nested | inside | perScope => exact h.elim

theorem flat (h : d.InLine) (scope : Option TypeScope) : d.Flat scope := by
  induction d with
  | empty => exact fun _ hnil => nomatch hnil
  | text | separator => exact List.forall_mem_singleton.2 h
  | malformed => exact List.forall_mem_singleton.2 trivial
  | append first second ih ih' => exact List.forall_mem_append.2 ⟨ih h.1, ih' h.2⟩
  | aligned body ih | node _ body ih | synthetic _ body ih => exact ih h
  | unsupported gap body ih => exact List.forall_mem_cons.2 ⟨trivial, ih h⟩
  | newline | lineStart | typeGap | nested | inside | perScope => exact h.elim

end InLine

/-- The characters that a document in one line writes. -/
def chars (d : Doc) : List Char := (d.moves none).flatMap Move.chars

section

variable {d : Doc} {options : Options} {column : Nat} {p q : Pass} {f : Forest Visited}

/-- What a run adds in the line. -/
theorem Runs.adds_chars (h : Runs options d column p f q) (hd : d.InLine) (hp : p.writer.due = [])
    (hu : Unbroken options (d.moves none) p.writer.bare) :
    q.writer.text.toList = p.writer.text.toList ++ d.chars := by
  have hmoves := h.perform_eq (by rwa [hd.moves_eq])
  have hadds : p.writer.bare.Adds d.chars q.writer.bare := by
    rw [hmoves, hd.moves_eq]
    exact perform_adds (hd.flat none) hp
  exact hadds.text

/-- A document that a run writes in the middle of a line is written by itself, and to the same
text. -/
theorem Runs.render_alone (h : Runs options d column p f q) (hd : d.InLine)
    (hp : p.writer.due = []) (hi : p.writer.indentation = options.indentation)
    (hu : Unbroken options (d.moves none) p.writer.bare) :
    ∃ out, d.render options = .ok out ∧ out.text.toList = d.chars := by
  have hrun := run_failure options d column p
  rw [h.run_eq, failure_moves, hd.moves_eq] at hrun
  obtain ⟨out, hout⟩ := exists_render_iff_moves.2 hrun.symm
  have hnew : (Writer.new options.indentation).due = [] := Writer.due_of_margin rfl
  have hunbroken : Unbroken options (d.moves none) (.new options.indentation) :=
    unbroken_of_le (w := p.writer.bare) (hd.flat none) hp hnew hi.symm (Nat.zero_le _) hu
  refine ⟨out, hout, ?_⟩
  rw [text_of_render hout hunbroken, (perform_adds (hd.flat none) hnew).text]
  rfl

end

end Doc

end SourcePrinter
