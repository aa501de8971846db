import SourcePrinter.Proofs.Places
import SourcePrinter.Proofs.Shift

/-! What a writer knows of its own text: where the text ends, whether a line starts there, and where
the next character will stand. Whatever is done to the writer keeps it right. -/

namespace SourcePrinter

/-- A line starts where the text ends exactly if nothing stands on the last line. -/
theorem endsLine_iff (text : List Char) : endsLine true text = true ↔ lastLine text = [] := by
  induction text using List.reverseRecOn with
  | nil => decide
  | append_singleton text c _ =>
    rw [endsLine_append, lastLine, List.reverse_append]
    by_cases hc : c = '\n'
    · simp [endsLine, hc]
    · simp [endsLine, hc]

/-! ### Starts of lines -/

/-- Where the writer starts a line, the text ends one. -/
def Writer.Starts (w : Writer) : Prop := w.atLineStart = true → endsLine true w.text.toList = true

namespace Writer

variable {w : Writer}

theorem Ended.starts (h : w.Ended) : w.Starts := fun hw => h.symm.trans hw

theorem starts_of_begun (h : w.atLineStart = false) : w.Starts := fun hw => by
  rw [h] at hw
  cases hw

namespace Starts

theorem writeChars (h : w.Starts) (text : List Char) : (w.writeChars text).Starts := by
  induction text generalizing w with
  | nil => exact h
  | cons c more ih => exact ih (Ended.writeChar w c).starts

theorem ensureLineStart (h : w.Starts) : w.ensureLineStart.Starts := by
  unfold Writer.ensureLineStart
  split
  · exact h
  · exact (Ended.newline w).starts

theorem blankLines (h : w.Starts) (count : Nat) : (w.blankLines count).Starts := by
  induction count generalizing w with
  | zero => exact h
  | succ count ih => exact ih (Ended.newline w).starts

/-- Behind the padding no line starts, even if the padding is empty. -/
theorem padTo (w : Writer) (column : Nat) : (w.padTo column).Starts := starts_of_begun rfl

theorem writeSeparator (h : w.Starts) (separator : String) (threshold column : Nat) :
    (w.writeSeparator separator threshold column).1.Starts := by
  unfold Writer.writeSeparator
  split
  · exact h.writeChars _
  · exact padTo _ _

theorem beginList (h : w.Starts) : w.beginList.1.Starts := by
  unfold Writer.beginList
  split <;> exact h

theorem endList (h : w.Starts) (owned : Bool) : (w.endList owned).Starts := by
  unfold Writer.endList
  split <;> exact h

end Starts

end Writer

/-! ### Operations -/

namespace WriterOp

variable (op : WriterOp) {w : Writer}

/-- An operation adds to the text, and the position follows. -/
theorem run_adds (w : Writer) : ∃ added, w.Adds added (op.run w).1 := by
  have line : ∀ text, ∃ added, w.Adds added (w.writeChars text) := fun text => by
    obtain ⟨added, h⟩ := w.writeChars_grows text
    exact ⟨added, h.toAdds⟩
  cases op with
  | write text => exact line _
  | writeLine text =>
    obtain ⟨added, h⟩ := line text.toList
    exact ⟨_, h.trans (Writer.newline_grows _).toAdds⟩
  | newline => exact ⟨_, w.newline_grows.toAdds⟩
  | blankLines count =>
    obtain ⟨added, h⟩ := w.blankLines_grows count
    exact ⟨added, h.toAdds⟩
  | space => exact line _
  | indent | dedent => exact ⟨[], rfl, (List.append_nil _).symm, rfl⟩
  | padTo column => exact w.padTo_adds column
  | beginList => exact ⟨_, w.beginList_grows.toAdds⟩
  | endList owned => exact ⟨_, (w.endList_grows owned).toAdds⟩
  | separator text threshold column =>
    obtain ⟨added, h⟩ := w.writeSeparator_grows text threshold column
    exact ⟨added, h.toAdds⟩

/-- After an operation a line starts only where the text ends one. -/
theorem run_starts (h : w.Starts) : (op.run w).1.Starts := by
  cases op with
  | write text => exact h.writeChars _
  | writeLine text => exact (Writer.Ended.newline _).starts
  | newline => exact (Writer.Ended.newline _).starts
  | blankLines count => exact h.blankLines count
  | space => exact h.writeChars _
  | indent | dedent => exact h
  | padTo column => exact .padTo w column
  | beginList => exact h.beginList
  | endList owned => exact h.endList owned
  | separator text threshold column => exact h.writeSeparator text threshold column

theorem runAll_adds (ops : List WriterOp) (w : Writer) : ∃ added, w.Adds added (runAll w ops) := by
  induction ops generalizing w with
  | nil => exact ⟨[], .refl w⟩
  | cons op ops ih =>
    obtain ⟨a, ha⟩ := op.run_adds w
    obtain ⟨b, hb⟩ := ih (op.run w).1
    exact ⟨a ++ b, ha.trans hb⟩

theorem runAll_starts (ops : List WriterOp) (h : w.Starts) : (runAll w ops).Starts := by
  induction ops generalizing w with
  | nil => exact h
  | cons op ops ih => exact ih (op.run_starts h)

end WriterOp

/-- After any operations the position is that of the end of the text, a line starts only where
nothing stands on the last one, and the first character of a text in one line, after the
indentation that is due, stands at the next position. -/
theorem Writer.bookkeeping (i : Indentation) (ops : List WriterOp) :
    let w := WriterOp.runAll (.new i) ops
    w.position = .ofText i.width w.text.toList ∧
      (w.atLineStart = true → lastLine w.text.toList = []) ∧
      ∀ s : String, s ≠ "" → '\n' ∉ s.toList →
        (w.write s).text.toList = w.text.toList ++ w.due ++ s.toList ∧
          w.nextPosition = .ofText i.width (w.text.toList ++ w.due) := by
  intro w
  obtain ⟨added, hw⟩ : ∃ added, (Writer.new i).Adds added w := WriterOp.runAll_adds ops _
  have hposition : w.position = .ofText i.width w.text.toList := by
    rw [hw.position, hw.text]
    exact Position.scan_origin added
  refine ⟨hposition, ?_, fun s hne hs => ⟨?_, ?_⟩⟩
  · exact fun h => (endsLine_iff _).1 (WriterOp.runAll_starts ops (Writer.Ended.starts rfl) h)
  · exact writeChars_text hs fun h => hne (String.toList_eq_nil_iff.1 h)
  · calc w.nextPosition
      _ = w.position.scan i.width w.due := by
        rw [nextPosition_eq, hw.indentation]
        rfl
      _ = Position.scan i.width .origin (w.text.toList ++ w.due) := by
        rw [hposition, Position.scan_append, Position.scan_origin]
      _ = .ofText i.width (w.text.toList ++ w.due) := Position.scan_origin _

end SourcePrinter
