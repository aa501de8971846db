import SourcePrinter.Script
import SourcePrinter.Proofs.Runs

/-! What a rendering leaves as it found it. What surrounds the place is the same at every end, with
an error or without one; the level of indentation is the same at the end of a rendering that
succeeds, and a list in progress then either keeps its column or has lost it. -/

namespace SourcePrinter

/-! ### The column of the list in progress -/

namespace Writer

variable (w : Writer)

@[simp] theorem alignment_putMany (c : Char) (n : Nat) :
    (w.putMany c n).alignment = w.alignment := by
  induction n generalizing w with
  | zero => rfl
  | succ n ih => exact ih (w.put c)

@[simp] theorem alignment_settle : w.settle.alignment = w.alignment := by
  unfold settle
  split
  · exact w.alignment_putMany _ _
  · rfl

@[simp] theorem alignment_writeChars (text : List Char) :
    (w.writeChars text).alignment = w.alignment := by
  induction text generalizing w with
  | nil => rfl
  | cons c more ih =>
    have hc : (w.writeChar c).alignment = w.alignment := by
      unfold writeChar
      split
      · rfl
      · exact w.alignment_settle
    exact (ih (w.writeChar c)).trans hc

@[simp] theorem alignment_ensureLineStart : w.ensureLineStart.alignment = w.alignment := by
  unfold ensureLineStart
  split <;> rfl

@[simp] theorem alignment_blankLines (count : Nat) :
    (w.blankLines count).alignment = w.alignment := by
  induction count generalizing w with
  | zero => rfl
  | succ count ih => exact ih w.newline

@[simp] theorem alignment_padTo (column : Nat) : (w.padTo column).alignment = w.alignment := by
  simp [padTo]

@[simp] theorem alignment_writeSeparator (separator : String) (threshold column : Nat) :
    (w.writeSeparator separator threshold column).1.alignment = w.alignment := by
  unfold writeSeparator
  split
  · exact w.alignment_writeChars _
  · exact (alignment_padTo _ column).trans (w.alignment_writeChars _)

/-- A list is begun by the caller exactly if none is in progress. -/
theorem owned_beginList : w.beginList.2.2 = w.alignment.isNone := by
  unfold beginList
  split <;> simp [*]

/-- The list in progress has the column that it had, or lost it. -/
def Keeps (w v : Writer) : Prop := v.alignment = w.alignment ∨ v.alignment = none

namespace Keeps

variable {w v u : Writer}

theorem trans (h : w.Keeps v) (h' : v.Keeps u) : w.Keeps u := by
  rcases h' with h' | h'
  · exact h.imp h'.trans h'.trans
  · exact .inr h'

/-- Inside a list its column is kept or lost; afterwards it is the column before the list. -/
theorem endList (h : w.beginList.1.Keeps v) : w.Keeps (v.endList w.beginList.2.2) := by
  cases hw : w.alignment with
  | none =>
    have hends : v.endList w.beginList.2.2 = { v with alignment := none } := by
      rw [owned_beginList, hw]
      rfl
    rw [hends]
    exact .inr rfl
  | some column =>
    have hjoined : w.beginList = (w, column, false) := by rw [beginList, hw]
    rw [hjoined] at h ⊢
    exact h

end Keeps

end Writer

/-! ### Runs -/

namespace Doc

variable {options : Options} {d : Doc} {column : Nat} {p q : Pass} {f : Forest Visited}

/-- A run leaves the level of indentation as it was. -/
theorem Runs.level (h : Runs options d column p f q) : q.writer.level = p.writer.level := by
  obtain ⟨_, hg⟩ := h.grows
  exact hg.level

/-- A run keeps the column of the list in progress or clears it. -/
theorem Runs.keeps (h : Runs options d column p f q) : p.writer.Keeps q.writer := by
  induction h with
  | empty | newline => exact .inl rfl
  | text => exact .inl (Writer.alignment_writeChars _ _)
  | lineStart => exact .inl (Writer.alignment_ensureLineStart _)
  | typeGap => exact .inl (Writer.alignment_blankLines _ _)
  | separator => exact .inl (Writer.alignment_writeSeparator _ _ _ _)
  | append _ _ ih ih' => exact ih.trans ih'
  | nested => exact .inr rfl
  | aligned _ ih => exact ih.endList
  | node _ _ _ ih | unseen _ _ ih | inside _ ih | perScope _ ih | unsupported _ _ ih => exact ih
  | synthetic _ ih =>
    rw [Pass.writer_markSynthetic] at ih
    rw [Pass.writer_unmarkSynthetic]
    exact ih

end Doc

/-- Rendering a tree of any kind, in any state, leaves the types around the place, the marks and
the recording of spans as they were, whether it fails or not. If it does not fail, the level of
indentation is the same too, and the column of a list in progress is unchanged or cleared. -/
theorem Subject.surroundings_restored (l : Language) (options : Options) (setting : Setting)
    (subject : Subject) (manner : Manner) (p : Pass) :
    let o := (subject.document l setting manner).write options p
    (o.pass.scopes = p.scopes ∧ o.pass.synthetic = p.synthetic ∧
      o.pass.recording = p.recording) ∧
    (o.failure = none → o.pass.writer.level = p.writer.level ∧
      (o.pass.writer.alignment = p.writer.alignment ∨ o.pass.writer.alignment = none)) := by
  refine ⟨Doc.run_surroundings options _ 0 p, fun hdone => ?_⟩
  obtain ⟨_, hruns⟩ := Doc.runs_of_done _ 0 p hdone
  exact ⟨hruns.level, hruns.keeps⟩

end SourcePrinter
