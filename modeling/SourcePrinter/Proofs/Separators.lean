import SourcePrinter.Proofs.Seams

/-! Where separators end. A separator that breaks its line is followed by padding to the column it
was given. One that stays on its line ends within the threshold if the line has begun; at the start
of a line it is measured without the indentation that is still due, and may end past it. -/

namespace SourcePrinter

/-! ### Columns -/

/-- A text in one line without tabs takes one column for each character. -/
theorem Position.width_of_untabbed (tabWidth : Nat) {text : List Char} (h : '\t' ∉ text) :
    width tabWidth text = text.length := by
  induction text with
  | nil => rfl
  | cons c more ih =>
    simp only [List.mem_cons, not_or] at h
    rw [← List.singleton_append, width_append, ih h.2]
    simp [width, Ne.symm h.1, Nat.add_comm]

/-- A level of indentation takes as many columns in tabs as in spaces. -/
theorem Indentation.width_margin (i : Indentation) (level : Nat) :
    Position.width i.width (i.margin level) = level * i.width := by
  unfold margin fill
  split
  · exact Position.width_replicate _ _ _
  · exact (Position.width_replicate _ _ _).trans (Nat.mul_one _)

/-- The position is that of the end of the text, and a line starts only where nothing stands on the
last one. -/
theorem WriterOp.runAll_placed (i : Indentation) (ops : List WriterOp) :
    let w := runAll (.new i) ops
    w.indentation = i ∧ w.position = .ofText i.width w.text.toList ∧
      (w.atLineStart = true → lastLine w.text.toList = []) := by
  intro w
  obtain ⟨added, hadds⟩ : ∃ added, (Writer.new i).Adds added w := runAll_adds ops _
  refine ⟨hadds.indentation, ?_, fun h => (endsLine_iff _).1 (runAll_starts ops ?_ h)⟩
  · rw [hadds.position, hadds.text]
    exact Position.scan_origin added
  · exact Writer.Ended.starts rfl

namespace Writer

variable {w : Writer} {text : List Char} {threshold column : Nat}

/-- Padding reaches the column unless the line is past it. -/
theorem virtualColumn_padTo (w : Writer) (column : Nat) :
    (w.padTo column).position.virtualColumn = max w.position.virtualColumn column := by
  have htabs : (if w.indentation.useTabs ∧ 0 < w.indentation.width then
      (column - w.position.virtualColumn) / w.indentation.width else 0) * w.indentation.width ≤
        column - w.position.virtualColumn := by
    split
    · exact Nat.div_mul_le_self _ _
    · rw [Nat.zero_mul]
      exact Nat.zero_le _
  simp only [padTo]
  rw [virtualColumn_spaces, virtualColumn_tabs]
  omega

/-- A text without tabs, in one line, ends as many columns behind what is due as it is long. -/
theorem virtualColumn_inLine (w : Writer) (hline : '\n' ∉ text) (htab : '\t' ∉ text)
    (hne : text ≠ []) : (w.writeChars text).position.virtualColumn =
      w.position.virtualColumn + Position.width w.indentation.width w.due + text.length := by
  rw [(w.adds_inLine hline).position,
    Position.virtualColumn_scan _ _ (lineFeed_not_mem_inLine hline), inLine, if_neg hne,
    Position.width_append, Position.width_of_untabbed _ htab, Nat.add_assoc]

/-- After a separator that breaks its line stands the padding. -/
theorem virtualColumn_of_broken {separator : String}
    (h : ¬w.position.virtualColumn + separator.length ≤ threshold) :
    (w.writeSeparator separator threshold column).1.position.virtualColumn = column := by
  rw [writeSeparator, if_neg h, virtualColumn_padTo]
  exact Nat.max_eq_right (Nat.zero_le column)

end Writer

/-- After any operations on a writer, for a separator without tabs and line feeds. One that breaks
its line leaves the writer at the column that it was given. It stays on its line exactly if it fits
there, what is due not counted. Then it ends past the threshold exactly if a line starts, the
separator is not empty, and it ends past the threshold behind the indentation. Columns and tabs are
of any size; they are those of a machine where the operations, with the separator after them, are
in range (`WriterOp.run?_last`). -/
theorem Writer.separator_ends (i : Indentation) (ops : List WriterOp) {separator : String}
    (hline : '\n' ∉ separator.toList) (htab : '\t' ∉ separator.toList) (threshold column : Nat) :
    let w := WriterOp.runAll (.new i) ops
    let kept := (w.writeSeparator separator threshold column).2 = false
    let stop := (w.writeSeparator separator threshold column).1.position.virtualColumn
    (¬kept → stop = column) ∧
    (kept ↔ w.position.virtualColumn + separator.length ≤ threshold) ∧
    (kept → (threshold < stop ↔ w.atLineStart = true ∧ separator ≠ "" ∧
      threshold < w.level * i.width + separator.length)) := by
  intro w kept stop
  have hkept : kept ↔ w.position.virtualColumn + separator.length ≤ threshold := by
    show (w.writeSeparator separator threshold column).2 = false ↔ _
    unfold writeSeparator
    split
    · next h => exact iff_of_true rfl h
    · next h => exact iff_of_false nofun h
  refine ⟨fun h => virtualColumn_of_broken (mt hkept.2 h), hkept, fun h => ?_⟩
  have hfits := hkept.1 h
  have hstop : stop = (w.write separator).position.virtualColumn := by
    show (w.writeSeparator separator threshold column).1.position.virtualColumn = _
    rw [writeSeparator, if_pos hfits]
  obtain ⟨hindentation, hposition, hstarts⟩ := WriterOp.runAll_placed i ops
  -- What is due is written with the first character of the separator, so only if there is one.
  by_cases hempty : separator = ""
  · subst hempty
    rw [hstop, write_empty]
    simp only [ne_eq, not_true_eq_false, false_and, and_false, iff_false, not_lt]
    exact hfits
  · have hne : separator.toList ≠ [] := fun h => hempty (String.toList_eq_nil_iff.1 h)
    rw [hstop, write, w.virtualColumn_inLine hline htab hne, String.length_toList]
    cases hstart : w.atLineStart with
    | true =>
      have hcolumn : w.position.virtualColumn = 0 := by
        rw [hposition, Position.ofText, hstarts hstart]
        rfl
      rw [due_of_start hstart, Indentation.width_margin, hcolumn, Nat.zero_add, hindentation]
      simp [hempty]
    | false =>
      rw [due_of_begun hstart]
      simp only [Bool.false_eq_true, false_and, iff_false, not_lt]
      exact hfits

/-- A line starts, with two levels of indentation due, in tabs of four columns. -/
def Writer.pending : Writer :=
  WriterOp.runAll (.new ⟨true, 4⟩) [.indent, .write "a\n", .indent]

theorem Writer.pending_separator_ends : ('\n' ∉ ", ".toList ∧ '\t' ∉ ", ".toList) ∧
    ((pending.writeSeparator ", " 1 3).2 ≠ false ∧
      (pending.writeSeparator ", " 1 3).1.position.virtualColumn = 3) ∧
    (pending.writeSeparator ", " 6 3).2 = false ∧
      6 < (pending.writeSeparator ", " 6 3).1.position.virtualColumn := by
  have hline : '\n' ∉ ", ".toList := by decide
  have htab : '\t' ∉ ", ".toList := by decide
  have hends := Writer.separator_ends ⟨true, 4⟩ [.indent, .write "a\n", .indent] hline htab
  obtain ⟨hbroken, hfits, -⟩ := hends 1 3
  have hbreaks : (pending.writeSeparator ", " 1 3).2 ≠ false := mt hfits.1 (by decide)
  obtain ⟨-, hfits, hpast⟩ := hends 6 3
  have hkept : (pending.writeSeparator ", " 6 3).2 = false := hfits.2 (by decide)
  exact ⟨⟨hline, htab⟩, ⟨hbreaks, hbroken hbreaks⟩, hkept,
    (hpast hkept).2 ⟨rfl, by decide, by decide⟩⟩

/-- One level deep, a separator at the start of a line is kept on it and ends past the
threshold. -/
theorem Writer.pending_separator_overruns :
    let w := WriterOp.runAll (.new ⟨false, 4⟩) [.indent]
    let r := w.writeSeparator ", " 4 8
    r.2 = false ∧ r.1.position.virtualColumn = 6 ∧
      ¬(r.2 = false → r.1.position.virtualColumn ≤ 4) := by
  decide

end SourcePrinter
