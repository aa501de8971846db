import SourcePrinter.Proofs.Moves

/-! Text one level deeper. A writer that starts at the beginning of a line, some levels deep, writes
what a writer of its own writes, with a margin before every line that is not empty. No list that
fits on its line there breaks one here. -/

namespace SourcePrinter

/-! ### Texts -/

/-- A text with a margin before every line that is not empty. The first line has one only if the
text starts where a line starts. -/
def shiftFrom (margin : List Char) : Bool → List Char → List Char
  | _, [] => []
  | starts, c :: rest =>
    if c = '\n' then c :: shiftFrom margin true rest
    else (if starts then margin else []) ++ c :: shiftFrom margin false rest

/-- A text with a margin before every line that is not empty. -/
def shift (margin text : List Char) : List Char := shiftFrom margin true text

example : shift "  ".toList "a\n\nb c\n".toList = "  a\n\n  b c\n".toList := by decide

/-- A line starts where the text ends, given whether one starts where the text starts. -/
def endsLine : Bool → List Char → Bool
  | starts, [] => starts
  | _, c :: rest => endsLine (c == '\n') rest

section

variable (margin : List Char) (starts : Bool) {text : List Char}

theorem endsLine_append (s t : List Char) :
    endsLine starts (s ++ t) = endsLine (endsLine starts s) t := by
  induction s generalizing starts with
  | nil => rfl
  | cons c more ih => exact ih _

theorem shiftFrom_append (s t : List Char) : shiftFrom margin starts (s ++ t) =
    shiftFrom margin starts s ++ shiftFrom margin (endsLine starts s) t := by
  induction s generalizing starts with
  | nil => rfl
  | cons c more ih =>
    by_cases hc : c = '\n'
    · simp [shiftFrom, endsLine, hc, ih]
    · simp [shiftFrom, endsLine, hc, ih, beq_eq_false_iff_ne.2 hc]

theorem shiftFrom_of_begun (h : '\n' ∉ text) : shiftFrom margin false text = text := by
  induction text with
  | nil => rfl
  | cons c more ih =>
    simp only [List.mem_cons, not_or] at h
    simp [shiftFrom, Ne.symm h.1, ih h.2]

/-- A text in one line has the margin once. -/
theorem shiftFrom_of_line (h : '\n' ∉ text) (hne : text ≠ []) :
    shiftFrom margin true text = margin ++ text := by
  cases text with
  | nil => exact absurd rfl hne
  | cons c more =>
    simp only [List.mem_cons, not_or] at h
    simp [shiftFrom, Ne.symm h.1, shiftFrom_of_begun margin h.2]

theorem endsLine_of_line (h : '\n' ∉ text) (hne : text ≠ []) : endsLine starts text = false := by
  have hbegun : ∀ text : List Char, '\n' ∉ text → endsLine false text = false := by
    intro text h
    induction text with
    | nil => rfl
    | cons c more ih =>
      simp only [List.mem_cons, not_or] at h
      rw [endsLine, beq_eq_false_iff_ne.2 (Ne.symm h.1), ih h.2]
  cases text with
  | nil => exact absurd rfl hne
  | cons c more =>
    simp only [List.mem_cons, not_or] at h
    rw [endsLine, beq_eq_false_iff_ne.2 (Ne.symm h.1), hbegun more h.2]

/-- The margin does not change where lines end. -/
theorem endsLine_shiftFrom (text : List Char) :
    endsLine starts (shiftFrom margin starts text) = endsLine starts text := by
  induction text generalizing starts with
  | nil => rfl
  | cons c more ih =>
    by_cases hc : c = '\n'
    · simp [shiftFrom, endsLine, hc, ih]
    · simp [shiftFrom, endsLine, endsLine_append, hc, ih, beq_eq_false_iff_ne.2 hc]

theorem shiftFrom_nil (text : List Char) : shiftFrom [] starts text = text := by
  induction text generalizing starts with
  | nil => rfl
  | cons c more ih =>
    simp only [shiftFrom, ih]
    split
    · rfl
    · split <;> rfl

end

/-! ### Columns -/

namespace Position

variable (tabWidth : Nat)

/-- The columns that a text in one line takes. -/
def width (text : List Char) : Nat :=
  text.foldr (fun c columns => (if c = '\t' then tabWidth else 1) + columns) 0

theorem width_append (s t : List Char) :
    width tabWidth (s ++ t) = width tabWidth s + width tabWidth t := by
  induction s with
  | nil => exact (Nat.zero_add _).symm
  | cons c more ih =>
    simp only [width, List.cons_append, List.foldr_cons] at ih ⊢
    omega

theorem virtualColumn_scan (p : Position) {text : List Char} (h : '\n' ∉ text) :
    (p.scan tabWidth text).virtualColumn = p.virtualColumn + width tabWidth text := by
  induction text generalizing p with
  | nil => rfl
  | cons c more ih =>
    simp only [List.mem_cons, not_or] at h
    rw [scan_cons, ih _ h.2, step, if_neg (Ne.symm h.1)]
    simp only [width, List.foldr_cons]
    omega

end Position

/-- The indentation of some levels. -/
def Indentation.margin (i : Indentation) (level : Nat) : List Char :=
  List.replicate (i.fill level).1 (i.fill level).2

theorem Indentation.margin_add (i : Indentation) (k level : Nat) :
    i.margin (k + level) = i.margin k ++ i.margin level := by
  unfold margin fill
  split
  · exact (List.replicate_append_replicate ..).symm
  · simp only [Nat.add_mul]
    exact (List.replicate_append_replicate ..).symm

theorem Indentation.margin_zero (i : Indentation) : i.margin 0 = [] := by
  unfold margin fill
  split
  · rfl
  · simp

/-! ### Writers -/

namespace Writer

theorem due_of_start {w : Writer} (h : w.atLineStart = true) :
    w.due = w.indentation.margin w.level := if_pos h

theorem due_of_begun {w : Writer} (h : w.atLineStart = false) : w.due = [] := by
  simp [due, h]

/-- At the margin no indentation is due. -/
theorem due_of_margin {w : Writer} (h : w.level = 0) : w.due = [] := by
  cases hstart : w.atLineStart with
  | true => rw [due_of_start hstart, h, Indentation.margin_zero]
  | false => exact due_of_begun hstart

theorem lineFeed_not_mem_added (w : Writer) {c : Char} (hc : c ≠ '\n') : '\n' ∉ w.due ++ [c] := by
  simp only [List.mem_append, List.mem_singleton, not_or]
  exact ⟨w.lineFeed_not_mem_due, Ne.symm hc⟩

/-- The text so far tells whether a line starts. -/
def Ended (w : Writer) : Prop := w.atLineStart = endsLine true w.text.toList

namespace Ended

variable {w : Writer}

theorem newline (w : Writer) : w.newline.Ended := by
  show true = endsLine true (w.put '\n').text.toList
  rw [(put_adds w '\n').text, endsLine_append]
  rfl

theorem writeChar (w : Writer) (c : Char) : (w.writeChar c).Ended := by
  by_cases hc : c = '\n'
  · rw [Writer.writeChar, if_pos hc]
    exact newline w
  · rw [Writer.writeChar, if_neg hc]
    show w.settle.atLineStart = endsLine true _
    rw [atLineStart_settle, (put_settle_grows w c).text, endsLine_append,
      endsLine_of_line _ (w.lineFeed_not_mem_added hc) (by simp)]

theorem writeChars (h : w.Ended) (text : List Char) : (w.writeChars text).Ended := by
  induction text generalizing w with
  | nil => exact h
  | cons c more ih => exact ih (writeChar w c)

theorem ensureLineStart (h : w.Ended) : w.ensureLineStart.Ended := by
  unfold Writer.ensureLineStart
  split
  · exact h
  · exact newline w

theorem blankLines (h : w.Ended) (count : Nat) : (w.blankLines count).Ended := by
  induction count generalizing w with
  | zero => exact h
  | succ count ih => exact ih (newline w)

end Ended

/-- The writer `w` writes after `before`, and `k` levels deeper, what `v` writes by itself. -/
structure Inset (k : Nat) (before : List Char) (w v : Writer) : Prop where
  indentation : w.indentation = v.indentation
  level : w.level = k + v.level
  atLineStart : w.atLineStart = v.atLineStart
  ended : v.Ended
  text : w.text.toList = before ++ shift (v.indentation.margin k) v.text.toList
  column : v.position.virtualColumn ≤ w.position.virtualColumn

namespace Inset

variable {k : Nat} {before : List Char} {w v : Writer}

theorem newline (h : Inset k before w v) : Inset k before w.newline v.newline where
  indentation := h.indentation
  level := h.level
  atLineStart := rfl
  ended := .newline v
  text := by
    show (w.put '\n').text.toList = before ++ shift (v.indentation.margin k) (v.put '\n').text.toList
    rw [(put_adds w '\n').text, (put_adds v '\n').text, h.text, shift, shift, shiftFrom_append,
      ← List.append_assoc]
    rfl
  column := Nat.le_refl 0

/-- What is due deeper is the margin and what is due. -/
theorem due (h : Inset k before w v) :
    w.due = (if v.atLineStart then v.indentation.margin k else []) ++ v.due := by
  cases hv : v.atLineStart with
  | false => rw [due_of_begun hv, due_of_begun (h.atLineStart.trans hv)]; rfl
  | true =>
    rw [due_of_start hv, due_of_start (h.atLineStart.trans hv), h.indentation, h.level,
      Indentation.margin_add]
    rfl

theorem writeChar (h : Inset k before w v) (c : Char) :
    Inset k before (w.writeChar c) (v.writeChar c) := by
  by_cases hc : c = '\n'
  · simp only [Writer.writeChar, if_pos hc]
    exact h.newline
  · -- Both writers add what is due and the character, which is text of one line.
    have hw := put_settle_grows w c
    have hv := put_settle_grows v c
    have hadded := v.lineFeed_not_mem_added hc
    have hne : v.due ++ [c] ≠ [] := by simp
    have hended := Ended.writeChar v c
    simp only [Writer.writeChar, if_neg hc] at hended ⊢
    exact
      { indentation := by rw [hw.indentation, hv.indentation, h.indentation]
        level := by rw [hw.level, hv.level, h.level]
        atLineStart := by
          show w.settle.atLineStart = v.settle.atLineStart
          rw [atLineStart_settle, atLineStart_settle]
        ended := hended
        text := by
          have hshift : shiftFrom (v.indentation.margin k) v.atLineStart (v.due ++ [c]) =
              w.due ++ [c] := by
            rw [h.due]
            cases v.atLineStart with
            | false => exact shiftFrom_of_begun _ hadded
            | true =>
              rw [shiftFrom_of_line _ hadded hne, if_pos rfl, List.append_assoc]
          rw [hw.text, hv.text, hv.indentation, h.text, shift, shift, shiftFrom_append, ← h.ended,
            hshift, List.append_assoc]
        column := by
          have hcolumn := h.column
          have hwidth : Position.width v.indentation.width (v.due ++ [c]) ≤
              Position.width v.indentation.width (w.due ++ [c]) := by
            rw [h.due, List.append_assoc, Position.width_append _ _ (v.due ++ [c])]
            omega
          rw [hw.position, hv.position, Position.virtualColumn_scan _ _ hadded,
            Position.virtualColumn_scan _ _ (w.lineFeed_not_mem_added hc), h.indentation]
          omega }

theorem writeChars (h : Inset k before w v) (text : List Char) :
    Inset k before (w.writeChars text) (v.writeChars text) := by
  induction text generalizing w v with
  | nil => exact h
  | cons c more ih => exact ih (h.writeChar c)

theorem ensureLineStart (h : Inset k before w v) :
    Inset k before w.ensureLineStart v.ensureLineStart := by
  unfold Writer.ensureLineStart
  rw [h.atLineStart]
  split
  · exact h
  · exact h.newline

theorem blankLines (h : Inset k before w v) (count : Nat) :
    Inset k before (w.blankLines count) (v.blankLines count) := by
  induction count generalizing w v with
  | zero => exact h
  | succ count ih => exact ih h.newline

theorem indent (h : Inset k before w v) : Inset k before w.indent v.indent :=
  { h with level := congrArg (· + 1) h.level }

theorem dedent (h : Inset k before w v) (hv : 0 < v.level) : Inset k before w.dedent v.dedent :=
  have hlevel : w.level - 1 = k + (v.level - 1) := by
    have hlevel := h.level
    omega
  { h with level := hlevel }

/-- A separator that fits deeper fits. -/
theorem fits (h : Inset k before w v) {options : Options} {move : Move}
    (hw : move.Fits options w) : move.Fits options v := by
  cases move with
  | separator s =>
    have hcolumn := h.column
    rw [Move.fits_separator] at hw ⊢
    omega
  | _ => trivial

end Inset

end Writer

/-! ### Moves -/

theorem Move.level_apply (options : Options) (w : Writer) {move : Move} (hi : move ≠ .indent)
    (hd : move ≠ .dedent) : (move.apply options w).level = w.level := by
  cases move with
  | write s | separator s =>
    obtain ⟨_, h⟩ := Writer.writeChars_grows w s.toList
    exact h.level
  | newline => rfl
  | lineStart =>
    obtain ⟨_, h⟩ := Writer.ensureLineStart_grows w
    exact h.level
  | typeGap =>
    obtain ⟨_, h⟩ := Writer.blankLines_grows w options.typeGap
    exact h.level
  | indent => exact absurd rfl hi
  | dedent => exact absurd rfl hd
  | gap | fault => rfl

namespace Balanced

variable {options : Options} {moves : List Move} {k : Nat} {before : List Char} {w v : Writer}

theorem level_perform (h : Balanced moves) (w : Writer) :
    (perform options moves w).level = w.level := by
  induction h generalizing w with
  | nil => rfl
  | move hi hd _ ih => rw [perform_cons, ih, Move.level_apply options w hi hd]
  | @level body rest _ _ ih ih' =>
    rw [perform_append, perform_cons, perform_cons, ih']
    show (perform options body w.indent).level - 1 = w.level
    rw [ih]
    rfl

/-- What breaks no line deeper breaks none by itself, and the texts differ in the margin. -/
theorem inset (hs : Balanced moves) (h : Writer.Inset k before w v)
    (hu : Unbroken options moves w) : Unbroken options moves v ∧
      Writer.Inset k before (perform options moves w) (perform options moves v) := by
  induction hs generalizing w v with
  | nil => exact ⟨trivial, h⟩
  | @move move rest hi hd _ ih =>
    have hstep : Writer.Inset k before (move.apply options w) (move.apply options v) := by
      cases move with
      | write s | separator s => exact h.writeChars s.toList
      | newline => exact h.newline
      | lineStart => exact h.ensureLineStart
      | typeGap => exact h.blankLines options.typeGap
      | indent => exact absurd rfl hi
      | dedent => exact absurd rfl hd
      | gap | fault => exact h
    obtain ⟨hrest, hperform⟩ := ih hstep hu.2
    exact ⟨⟨h.fits hu.1, hrest⟩, hperform⟩
  | @level body rest hbody _ ih ih' =>
    -- A level is left only where one was entered: below zero the two writers would part ways.
    obtain ⟨⟨-, hu⟩, -, hu'⟩ := unbroken_append.1 hu
    obtain ⟨hv, hin⟩ := ih h.indent hu
    have hpos : 0 < (perform options body v.indent).level := by
      rw [hbody.level_perform]
      exact Nat.succ_pos _
    obtain ⟨hv', hout⟩ := ih' (hin.dedent hpos) hu'
    rw [perform_append, perform_append]
    exact ⟨unbroken_append.2 ⟨⟨trivial, hv⟩, trivial, hv'⟩, hout⟩

end Balanced

end SourcePrinter
