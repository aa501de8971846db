import SourcePrinter.Proofs.Bookkeeping
import SourcePrinter.Proofs.Lists

/-! Texts written in parts. A writer may take a text character by character, or cut it where lines
end, write what stands in a line at once and count its columns and bytes as a whole; both come to
the same. So it does not matter either into which parts a text was cut before it was written. -/

namespace SourcePrinter

namespace Position

/-- A text in one line moves the position along the line. -/
theorem scan_of_line (tabWidth : Nat) (p : Position) {text : List Char} (h : '\n' ∉ text) :
    p.scan tabWidth text = ⟨p.line, p.column + text.length, p.virtualColumn + width tabWidth text,
      p.offset + bytes text⟩ := by
  have along : (p.scan tabWidth text).line = p.line ∧
      (p.scan tabWidth text).column = p.column + text.length := by
    induction text generalizing p with
    | nil => exact ⟨rfl, rfl⟩
    | cons c more ih =>
      simp only [List.mem_cons, not_or] at h
      obtain ⟨hline, hcolumn⟩ := ih (p.step tabWidth c) h.2
      rw [step, if_neg (Ne.symm h.1)] at hline hcolumn
      rw [scan_cons, step, if_neg (Ne.symm h.1), hline, hcolumn, List.length_cons]
      exact ⟨rfl, Nat.add_right_comm _ _ _⟩
  rw [← along.1, ← along.2, ← virtualColumn_scan tabWidth p h, ← offset_scan]

end Position

/-! ### Lines written at once -/

namespace Writer

/-- Adds a part of a line to the text. The columns go by the part, the bytes by the text. -/
def extend (w : Writer) (part : List Char) : Writer :=
  let text := w.text ++ String.ofList part
  { w with
    text
    position :=
      { w.position with
        column := w.position.column + part.length
        virtualColumn := w.position.virtualColumn + Position.width w.indentation.width part
        offset := text.utf8ByteSize } }

/-- Adds the indentation if it is due. -/
def extendDue (w : Writer) : Writer :=
  if w.atLineStart then { w.extend (w.indentation.margin w.level) with atLineStart := false } else w

/-- Writes a part of a line; an empty one leaves the indentation due. -/
def writePart (w : Writer) (part : List Char) : Writer :=
  if part = [] then w else w.extendDue.extend part

/-- Ends the line. -/
def endLine (w : Writer) : Writer :=
  let text := w.text.push '\n'
  { w with text, position := ⟨w.position.line + 1, 0, 0, text.utf8ByteSize⟩, atLineStart := true }

/-- Writes lines, with the end of a line between two of them. -/
def writeParts (w : Writer) : List (List Char) → Writer
  | [] => w
  | [part] => w.writePart part
  | part :: more => (w.writePart part).endLine.writeParts more

/-- Writes a text line by line. -/
def writeByLine (w : Writer) (text : String) : Writer := w.writeParts (text.toList.splitOn '\n')

/-- The offset is the number of bytes written. -/
def Counted (w : Writer) : Prop := w.position.offset = w.text.utf8ByteSize

variable {w v u : Writer} {a part : List Char}

theorem Adds.counted (h : w.Adds a v) (hw : w.Counted) : v.Counted := by
  show v.position.offset = _
  rw [h.position, Position.offset_scan, hw, ← Position.bytes_toList, ← Position.bytes_toList, h.text,
    Position.bytes_append]

/-- What is added to a writer, and what it owes then, is all that there is to it. -/
theorem Adds.unique (h : w.Adds a v) (h' : w.Adds a u) (hlevel : v.level = u.level)
    (hstart : v.atLineStart = u.atLineStart) (halignment : v.alignment = u.alignment) : v = u := by
  have htext : v.text = u.text := String.toList_injective (h.text.trans h'.text.symm)
  have hposition := h.position.trans h'.position.symm
  have hindentation := h.indentation.trans h'.indentation.symm
  cases v
  cases u
  simp_all

theorem extend_adds (hw : w.Counted) (h : '\n' ∉ part) : w.Adds part (w.extend part) where
  indentation := rfl
  text := by simp [extend]
  position := by
    have hbytes : (w.text ++ String.ofList part).utf8ByteSize =
        w.position.offset + Position.bytes part := by
      rw [hw, ← Position.bytes_toList, ← Position.bytes_toList w.text, String.toList_append,
        String.toList_ofList, Position.bytes_append]
    rw [Position.scan_of_line _ _ h, ← hbytes]
    rfl

theorem extendDue_adds (hw : w.Counted) : w.Adds w.due w.extendDue := by
  unfold extendDue
  cases hstart : w.atLineStart with
  | true =>
    have hline : '\n' ∉ w.indentation.margin w.level := by
      rw [← due_of_start hstart]
      exact w.lineFeed_not_mem_due
    have h := extend_adds hw hline
    rw [due_of_start hstart]
    exact ⟨h.indentation, h.text, h.position⟩
  | false =>
    rw [due_of_begun hstart]
    exact .refl w

/-- After that no indentation is due; all else is as it was. -/
theorem extendDue_begun (w : Writer) : w.extendDue.level = w.level ∧
    w.extendDue.atLineStart = false ∧ w.extendDue.alignment = w.alignment := by
  unfold extendDue
  split
  · exact ⟨rfl, rfl, rfl⟩
  · next hbegun => exact ⟨rfl, Bool.eq_false_iff.2 hbegun, rfl⟩

/-- A text in one line stands after what is due. -/
theorem adds_inLine (w : Writer) (h : '\n' ∉ part) : w.Adds (w.inLine part) (w.writeChars part) := by
  obtain ⟨added, hchars⟩ := w.writeChars_grows part
  have hadded : added = w.inLine part :=
    List.append_cancel_left (hchars.text.symm.trans (w.text_writeChars h))
  exact hadded ▸ hchars.toAdds

/-- A part of a line written at once is the part written character by character. -/
theorem writePart_eq (hw : w.Counted) (h : '\n' ∉ part) : w.writePart part = w.writeChars part := by
  unfold writePart
  split
  · next hempty => rw [hempty, writeChars_nil]
  · next hne =>
    have hdue := extendDue_adds hw
    have hpart : w.Adds (w.inLine part) (w.extendDue.extend part) := by
      rw [inLine, if_neg hne]
      exact hdue.trans (extend_adds (hdue.counted hw) h)
    obtain ⟨hlevel, hbegun, halignment⟩ := w.extendDue_begun
    obtain ⟨_, hchars⟩ := w.writeChars_grows part
    refine hpart.unique (w.adds_inLine h) (hlevel.trans hchars.level.symm) ?_ ?_
    · rw [atLineStart_writeChars w h, List.isEmpty_eq_false_iff.2 hne, Bool.and_false]
      exact hbegun
    · rw [alignment_writeChars]
      exact halignment

theorem endLine_eq (hw : w.Counted) : w.endLine = w.newline := by
  have hbytes : (w.text.push '\n').utf8ByteSize = w.position.offset + '\n'.utf8Size := by
    rw [hw, String.utf8ByteSize_push]
  simp only [endLine, hbytes]
  rfl

/-- Writing a text line by line is writing it character by character. -/
theorem writeParts_splitOn {w : Writer} (hw : w.Counted) (text : List Char) :
    w.writeParts (text.splitOn '\n') = w.writeChars text := by
  by_cases hmem : '\n' ∈ text
  · -- The first line is written, and the rest is a shorter text.
    obtain ⟨line, rest, htext, hline⟩ := List.eq_append_cons_of_mem hmem
    have hshorter : rest.length < text.length := by
      rw [htext, List.length_append, List.length_cons]
      omega
    obtain ⟨next, more, hrest⟩ := List.exists_cons_of_ne_nil (List.splitOn_ne_nil '\n' rest)
    obtain ⟨_, hgrows⟩ := w.writeChars_grows line
    have hcounted : (w.writeChars line).Counted := hgrows.toAdds.counted hw
    have hnext : (w.writeChars line).newline.Counted :=
      (newline_grows _).toAdds.counted hcounted
    rw [htext]
    calc w.writeParts ((line ++ '\n' :: rest).splitOn '\n')
      _ = (w.writePart line).endLine.writeParts (rest.splitOn '\n') := by
        rw [List.splitOn_append_cons_self_of_not_mem hline, hrest]
        rfl
      _ = (w.writeChars line).newline.writeChars rest := by
        rw [writePart_eq hw hline, endLine_eq hcounted, writeParts_splitOn hnext rest]
      _ = w.writeChars (line ++ '\n' :: rest) := by
        rw [writeChars_append]
        rfl
  · rw [List.splitOn_eq_singleton hmem]
    exact writePart_eq hw hmem
termination_by text.length

theorem write_eq_writeByLine (hw : w.Counted) (text : String) : w.write text = w.writeByLine text :=
  (writeParts_splitOn hw text.toList).symm

theorem write_append (w : Writer) (a b : String) : w.write (a ++ b) = (w.write a).write b := by
  rw [write, String.toList_append, writeChars_append]
  rfl

/-- Texts that are written one after the other are written as one. -/
theorem foldl_write (w : Writer) (texts : List String) :
    texts.foldl write w = w.write (String.join texts) := by
  induction texts generalizing w with
  | nil => rfl
  | cons text more ih => rw [List.foldl_cons, ih, String.join_cons, write_append]

end Writer

/-- After any operations on a writer, a text may be cut anywhere before it is written, and into any
number of parts, and the state of the writer comes out the same; so it does if the writer works line
by line, where the seam may be anywhere in a line, at its start or at its end. -/
theorem Writer.write_seamless (i : Indentation) (ops : List WriterOp) :
    let w := WriterOp.runAll (.new i) ops
    (∀ a b : String, w.write (a ++ b) = (w.write a).write b) ∧
    (∀ a b : String, w.writeByLine (a ++ b) = (w.writeByLine a).writeByLine b) ∧
    (∀ text : String, w.write text = w.writeByLine text) ∧
    ∀ texts : List String, texts.foldl write w = w.write (String.join texts) := by
  intro w
  obtain ⟨_, hadds⟩ : ∃ added, (Writer.new i).Adds added w := WriterOp.runAll_adds ops _
  have hw : w.Counted := hadds.counted rfl
  refine ⟨w.write_append, fun a b => ?_, write_eq_writeByLine hw, w.foldl_write⟩
  have ha : (w.write a).Counted := by
    obtain ⟨_, hgrows⟩ := w.writeChars_grows a.toList
    exact hgrows.toAdds.counted hw
  calc w.writeByLine (a ++ b)
    _ = (w.write a).write b := by rw [← write_eq_writeByLine hw, write_append]
    _ = (w.writeByLine a).writeByLine b := by
      rw [write_eq_writeByLine ha, ← write_eq_writeByLine hw]

end SourcePrinter
