import Mathlib.Data.List.TakeWhile
import SourcePrinter.Proofs.Shift
import SourcePrinter.Proofs.Surroundings

/-! Lists that wrap. While a list is in progress, the separators in it and in the lists inside it
break to one column, the one at which the outermost list began. A rendering under any threshold is
set beside the one in which no separator breaks. -/

namespace SourcePrinter

/-! ### Padding -/

/-- What stands at the start of a line that is padded to a column. -/
def Indentation.padding (i : Indentation) (column : Nat) : List Char :=
  let tabs := if i.useTabs ∧ 0 < i.width then column / i.width else 0
  List.replicate tabs '\t' ++ List.replicate (column - tabs * i.width) ' '

/-- The columns of one character repeated. -/
theorem Position.width_replicate (tabWidth n : Nat) (c : Char) :
    width tabWidth (List.replicate n c) = n * (if c = '\t' then tabWidth else 1) := by
  induction n with
  | zero => exact (Nat.zero_mul _).symm
  | succ n ih =>
    rw [List.replicate_succ, width, List.foldr_cons, ← width, ih, Nat.succ_mul]
    exact Nat.add_comm _ _

namespace Indentation

variable (i : Indentation) (column : Nat)

/-- Padding takes as many columns as it is to reach. -/
theorem width_padding : Position.width i.width (i.padding column) = column := by
  have hfit : (if i.useTabs ∧ 0 < i.width then column / i.width else 0) * i.width ≤ column := by
    split
    · exact Nat.div_mul_le_self _ _
    · rw [Nat.zero_mul]
      exact Nat.zero_le _
  unfold padding
  rw [Position.width_append, Position.width_replicate, Position.width_replicate, if_pos rfl,
    if_neg (show ' ' ≠ '\t' by decide), Nat.mul_one]
  exact Nat.add_sub_of_le hfit

theorem blank_of_mem_padding {c : Char} (h : c ∈ i.padding column) : c = '\t' ∨ c = ' ' := by
  rcases List.mem_append.1 h with h | h
  · exact .inl (List.eq_of_mem_replicate h)
  · exact .inr (List.eq_of_mem_replicate h)

theorem lineFeed_not_mem_padding : '\n' ∉ i.padding column := by
  intro h
  rcases i.blank_of_mem_padding column h with h | h <;> cases h

/-- After a line feed and padding the column is the one that the padding was to reach. -/
theorem virtualColumn_padding (position : Position) (before : List Char) :
    (position.scan i.width (before ++ '\n' :: i.padding column)).virtualColumn = column := by
  rw [Position.scan_append, Position.scan_cons,
    Position.virtualColumn_scan _ _ (i.lineFeed_not_mem_padding column), i.width_padding]
  exact Nat.zero_add column

end Indentation

namespace Writer

variable {w v : Writer} {c : Char} {n column : Nat}

/-- As long as a condition holds, a character is added. -/
inductive Loop (condition : Writer → Prop) (c : Char) : Writer → Writer → Prop where
  | stop {w : Writer} : ¬condition w → Loop condition c w w
  | step {w v : Writer} : condition w → Loop condition c (w.put c) v → Loop condition c w v

/-- Padding step by step: tabs as long as they fit, if tabs are in use and have a width, then spaces
up to the column. -/
def Pads (column : Nat) (w v : Writer) : Prop :=
  ∃ tabbed spaced : Writer,
    (if w.indentation.useTabs ∧ 0 < w.indentation.width then
      Loop (fun u => u.position.virtualColumn + u.indentation.width ≤ column) '\t' w tabbed
    else tabbed = w) ∧
    Loop (fun u => u.position.virtualColumn < column) ' ' tabbed spaced ∧
    v = { spaced with atLineStart := false }

/-- A loop whose condition holds for some rounds and then no more comes to its end. -/
theorem loop_of_rounds {condition : Writer → Prop} (h : ∀ k < n, condition (w.putMany c k))
    (hn : ¬condition (w.putMany c n)) : Loop condition c w (w.putMany c n) := by
  induction n generalizing w with
  | zero => exact .stop hn
  | succ n ih =>
    exact .step (h 0 (Nat.succ_pos n)) (ih (fun k hk => h (k + 1) (Nat.succ_lt_succ hk)) hn)

theorem indentation_putMany (w : Writer) (c : Char) (n : Nat) :
    (w.putMany c n).indentation = w.indentation := (putMany_adds w c n).indentation

theorem virtualColumn_putMany (w : Writer) {c : Char} (hc : c ≠ '\n') (n : Nat) :
    (w.putMany c n).position.virtualColumn =
      w.position.virtualColumn + n * (if c = '\t' then w.indentation.width else 1) := by
  have hline : '\n' ∉ List.replicate n c := fun h => hc (List.eq_of_mem_replicate h).symm
  rw [(putMany_adds w c n).position, Position.virtualColumn_scan _ _ hline,
    Position.width_replicate]

theorem virtualColumn_spaces (w : Writer) (n : Nat) :
    (w.putMany ' ' n).position.virtualColumn = w.position.virtualColumn + n := by
  rw [virtualColumn_putMany w (by decide), if_neg (by decide), Nat.mul_one]

theorem virtualColumn_tabs (w : Writer) (n : Nat) :
    (w.putMany '\t' n).position.virtualColumn =
      w.position.virtualColumn + n * w.indentation.width := by
  rw [virtualColumn_putMany w (by decide), if_pos rfl]

/-- The padding of a line is what the loops come to. -/
theorem pads_padTo (w : Writer) (column : Nat) : w.Pads column (w.padTo column) := by
  refine ⟨_, _, ?_, loop_of_rounds (fun k hk => ?_) ?_, rfl⟩
  · split
    · next htabs =>
      refine loop_of_rounds (fun k hk => ?_) ?_
      · have hle := (Nat.le_div_iff_mul_le htabs.2).1 (Nat.succ_le_of_lt hk)
        rw [Nat.succ_mul] at hle
        rw [virtualColumn_tabs, indentation_putMany]
        omega
      · have hlt := Nat.lt_mul_div_succ (column - w.position.virtualColumn) htabs.2
        rw [Nat.mul_succ, Nat.mul_comm] at hlt
        rw [virtualColumn_tabs, indentation_putMany]
        omega
    · rfl
  · rw [virtualColumn_spaces]
    omega
  · rw [virtualColumn_spaces]
    omega

/-- At the start of a line the padding is all that stands before the column. -/
theorem text_padTo (hw : w.position.virtualColumn = 0) (column : Nat) :
    (w.padTo column).text.toList = w.text.toList ++ w.indentation.padding column := by
  simp only [padTo]
  rw [(putMany_adds _ ' ' _).text, (putMany_adds w '\t' _).text, virtualColumn_tabs, hw,
    List.append_assoc, Nat.sub_zero, Nat.zero_add]
  rfl

end Writer

/-! ### Texts with and without breaks -/

/-- One text is another with some separators broken: of a broken one the white space at its end is
dropped, and a line feed and padding follow. No other line feed is there. -/
inductive Wraps (separator : String → Prop) (pad : List Char) : List Char → List Char → Prop where
  | nil : Wraps separator pad [] []
  | char {c : Char} {a b : List Char} :
    c ≠ '\n' → Wraps separator pad a b → Wraps separator pad (c :: a) (c :: b)
  | broken {s : String} {a b : List Char} : separator s → Wraps separator pad a b →
    Wraps separator pad (trimEnd s.toList ++ '\n' :: (pad ++ a)) (s.toList ++ b)

/-- A text that can part the items of a list: it stays in the line, and there is more in it than
white space. -/
structure IsSeparator (s : String) : Prop where
  line : '\n' ∉ s.toList
  visible : ∃ c ∈ s.toList, isBlank c = false

namespace IsSeparator

variable {s : String}

theorem lineFeed_not_mem_trimEnd (h : IsSeparator s) : '\n' ∉ trimEnd s.toList := by
  intro hmem
  apply h.line
  rw [← trimEnd_append_takeWhile s.toList]
  exact List.mem_append_left _ hmem

/-- Something is left of a separator when it is broken. -/
theorem trimEnd_ne_nil (h : IsSeparator s) : trimEnd s.toList ≠ [] := by
  obtain ⟨c, hc, hvisible⟩ := h.visible
  intro hnil
  have hall := List.dropWhile_eq_nil_iff.1 (List.reverse_eq_nil_iff.1 hnil)
  rw [hall c (List.mem_reverse.2 hc)] at hvisible
  cases hvisible

end IsSeparator

namespace Wraps

variable {separator : String → Prop} {pad a b a' b' : List Char}

theorem append (h : Wraps separator pad a b) (h' : Wraps separator pad a' b') :
    Wraps separator pad (a ++ a') (b ++ b') := by
  induction h with
  | nil => exact h'
  | char hc _ ih => exact .char hc ih
  | broken hs _ ih =>
    rw [List.append_assoc, List.cons_append, List.append_assoc, List.append_assoc]
    exact .broken hs ih

/-- A text in one line wraps to itself. -/
theorem of_line (h : '\n' ∉ a) : Wraps separator pad a a := by
  induction a with
  | nil => exact .nil
  | cons c more ih =>
    simp only [List.mem_cons, not_or] at h
    exact .char (Ne.symm h.1) (ih h.2)

/-- Without breaks there is no line feed. -/
theorem lineFeed_not_mem (h : Wraps separator pad a b) (hs : ∀ s, separator s → IsSeparator s) :
    '\n' ∉ b := by
  induction h with
  | nil => exact List.not_mem_nil
  | char hc _ ih => exact List.not_mem_cons_of_ne_of_not_mem (Ne.symm hc) ih
  | broken hsep _ ih => exact fun hmem => (List.mem_append.1 hmem).elim (hs _ hsep).line ih

/-- A line feed in a text stands after a part that has none. -/
theorem cut {x y before after : List Char} (hx : '\n' ∉ x)
    (h : x ++ y = before ++ '\n' :: after) : ∃ more, y = more ++ '\n' :: after := by
  induction x generalizing before with
  | nil => exact ⟨before, h⟩
  | cons c x ih =>
    simp only [List.mem_cons, not_or] at hx
    cases before with
    | nil => exact absurd (List.cons.inj h).1.symm hx.1
    | cons c' before => exact ih hx.2 (List.cons.inj h).2

/-- After every line feed the padding stands. -/
theorem padded (h : Wraps separator pad a b) (hs : ∀ s, separator s → IsSeparator s)
    (hpad : '\n' ∉ pad) {before after : List Char} (ha : a = before ++ '\n' :: after) :
    pad <+: after := by
  -- A line feed in the text is that of a break, or stands in what comes after the break.
  induction h generalizing before with
  | nil => cases before <;> cases ha
  | char hc _ ih =>
    cases before with
    | nil => exact absurd (List.cons.inj ha).1 hc
    | cons c' before => exact ih (List.cons.inj ha).2
  | @broken s a b hsep _ ih =>
    obtain ⟨more, hmore⟩ := cut (hs s hsep).lineFeed_not_mem_trimEnd ha
    cases more with
    | nil =>
      rw [← (List.cons.inj hmore).2]
      exact List.prefix_append pad a
    | cons c more =>
      obtain ⟨before, hbefore⟩ := cut hpad (List.cons.inj hmore).2
      exact ih hbefore

end Wraps

/-! ### One line beside several -/

namespace Writer

variable {w v : Writer} {text : List Char}

/-- What a text in one line adds. -/
def inLine (w : Writer) (text : List Char) : List Char :=
  if text = [] then [] else w.due ++ text

theorem text_writeChars (w : Writer) (h : '\n' ∉ text) :
    (w.writeChars text).text.toList = w.text.toList ++ w.inLine text := by
  unfold inLine
  split
  · next hnil => simp [hnil]
  · next hne => rw [writeChars_text h hne, List.append_assoc]

theorem atLineStart_writeChars (w : Writer) (h : '\n' ∉ text) :
    (w.writeChars text).atLineStart = (w.atLineStart && text.isEmpty) := by
  induction text generalizing w with
  | nil => exact (Bool.and_true _).symm
  | cons c more ih =>
    simp only [List.mem_cons, not_or] at h
    have hbegun : (w.writeChar c).atLineStart = false := by
      rw [writeChar, if_neg (Ne.symm h.1)]
      exact w.atLineStart_settle
    rw [writeChars_cons, ih _ h.2, hbegun]
    exact (Bool.and_false _).symm

theorem lineFeed_not_mem_inLine (h : '\n' ∉ text) : '\n' ∉ w.inLine text := by
  unfold inLine
  split
  · exact List.not_mem_nil
  · exact fun hmem => (List.mem_append.1 hmem).elim w.lineFeed_not_mem_due h

/-- The writer in a list that begins now. -/
def inList (w : Writer) : Writer := { w with alignment := some w.nextPosition.virtualColumn }

/-- Two writers have the same indentation due, now and on lines to come. -/
structure InStep (w v : Writer) : Prop where
  indentation : w.indentation = v.indentation
  level : w.level = v.level
  atLineStart : w.atLineStart = v.atLineStart

theorem InStep.refl (w : Writer) : w.InStep w := ⟨rfl, rfl, rfl⟩

theorem InStep.due (h : w.InStep v) : w.due = v.due := by
  unfold Writer.due
  rw [h.indentation, h.level, h.atLineStart]

theorem InStep.inLine (h : w.InStep v) : w.inLine text = v.inLine text := by
  rw [Writer.inLine, Writer.inLine, h.due]

theorem InStep.writeChars (h : w.InStep v) (ht : '\n' ∉ text) :
    (w.writeChars text).InStep (v.writeChars text) := by
  obtain ⟨_, hw⟩ := writeChars_grows w text
  obtain ⟨_, hv⟩ := writeChars_grows v text
  refine ⟨?_, ?_, ?_⟩
  · rw [hw.indentation, hv.indentation, h.indentation]
  · rw [hw.level, hv.level, h.level]
  · rw [atLineStart_writeChars w ht, atLineStart_writeChars v ht, h.atLineStart]

/-- A broken separator is what is left of it, a line feed and padding. -/
theorem text_writeSeparator {s : String} (hs : IsSeparator s) {threshold column : Nat}
    (h : ¬w.position.virtualColumn + s.length ≤ threshold) :
    (w.writeSeparator s threshold column).1.text.toList = w.text.toList ++
      (w.due ++ (trimEnd s.toList ++ '\n' :: w.indentation.padding column)) := by
  have hindentation : (w.writeChars (trimEnd s.toList)).indentation = w.indentation := by
    obtain ⟨_, hw⟩ := writeChars_grows w (trimEnd s.toList)
    exact hw.indentation
  have hnewline : (w.writeChars (trimEnd s.toList)).newline.text.toList =
      (w.writeChars (trimEnd s.toList)).text.toList ++ ['\n'] := (newline_grows _).text
  rw [writeSeparator, if_neg h, text_padTo rfl, hnewline,
    writeChars_text hs.lineFeed_not_mem_trimEnd hs.trimEnd_ne_nil]
  simp only [List.append_assoc, List.cons_append, List.nil_append]
  rw [show ∀ u : Writer, u.newline.indentation = u.indentation from fun _ => rfl, hindentation]

/-- Two writers go on beside each other: what the first adds is what the second adds with some
separators broken, and they stay in step. -/
structure Beside (separator : String → Prop) (pad : List Char) (w v w' v' : Writer) : Prop where
  texts : ∃ a b, w'.text.toList = w.text.toList ++ a ∧ v'.text.toList = v.text.toList ++ b ∧
    Wraps separator pad a b
  inStep : w'.InStep v'

namespace Beside

variable {separator : String → Prop} {pad : List Char} {w' v' w'' v'' : Writer}

theorem refl (h : w.InStep v) : Beside separator pad w v w v :=
  ⟨⟨[], [], (List.append_nil _).symm, (List.append_nil _).symm, .nil⟩, h⟩

theorem trans (h : Beside separator pad w v w' v') (h' : Beside separator pad w' v' w'' v'') :
    Beside separator pad w v w'' v'' := by
  obtain ⟨a, b, ha, hb, hwraps⟩ := h.texts
  obtain ⟨a', b', ha', hb', hwraps'⟩ := h'.texts
  refine ⟨⟨a ++ a', b ++ b', ?_, ?_, hwraps.append hwraps'⟩, h'.inStep⟩
  · rw [ha', ha, List.append_assoc]
  · rw [hb', hb, List.append_assoc]

/-- Both write a text in one line. -/
theorem write (h : w.InStep v) {s : String} (hs : '\n' ∉ s.toList) :
    Beside separator pad w v (w.write s) (v.write s) where
  texts := ⟨_, _, w.text_writeChars hs, h.inLine ▸ v.text_writeChars hs,
    .of_line (lineFeed_not_mem_inLine hs)⟩
  inStep := h.writeChars hs

/-- The first breaks a separator that the second writes. -/
theorem writeSeparator (h : w.InStep v) {s : String} (hs : IsSeparator s) (hsep : separator s)
    {threshold column : Nat} (hfull : ¬w.position.virtualColumn + s.length ≤ threshold) :
    Beside separator (w.indentation.padding column) w v
      (w.writeSeparator s threshold column).1 (v.write s) := by
  have hne : s.toList ≠ [] := List.ne_nil_of_mem hs.visible.choose_spec.1
  obtain ⟨_, hw⟩ := w.writeSeparator_grows s threshold column
  obtain ⟨_, hv⟩ := v.writeChars_grows s.toList
  have hbroken : Wraps separator (w.indentation.padding column) _ _ := .broken hsep .nil
  rw [List.append_nil, List.append_nil] at hbroken
  refine ⟨⟨_, v.due ++ s.toList, text_writeSeparator hs hfull, ?_, ?_⟩, ⟨?_, ?_, ?_⟩⟩
  · exact (writeChars_text hs.line hne).trans (List.append_assoc _ _ _)
  · rw [← h.due]
    exact (Wraps.of_line w.lineFeed_not_mem_due).append hbroken
  · exact hw.indentation.trans (h.indentation.trans hv.indentation.symm)
  · exact hw.level.trans (h.level.trans hv.level.symm)
  · have hempty : s.toList.isEmpty = false := List.isEmpty_eq_false_iff.2 hne
    rw [Writer.writeSeparator, if_neg hfull, Writer.write, atLineStart_writeChars v hs.line, hempty,
      Bool.and_false]
    rfl

end Beside

end Writer

namespace Move

/-- The move keeps to the line unless a separator is broken. -/
def IsFlat : Move → Prop
  | write s => '\n' ∉ s.toList
  | separator s => IsSeparator s
  | newline | lineStart | typeGap | indent | dedent => False
  | gap _ | fault _ => True

/-- The writer after a move in a list that breaks to a column. -/
def advance (options : Options) (column : Nat) (w : Writer) : Move → Writer
  | separator s => (w.writeSeparator s options.wrapColumn column).1
  | move => move.apply options w

end Move

/-- The writer after moves in a list that breaks to a column. -/
def advances (options : Options) (column : Nat) (moves : List Move) (w : Writer) : Writer :=
  moves.foldl (Move.advance options column) w

section

variable {options : Options} {column : Nat} {moves : List Move} {w v : Writer}

theorem Move.advance_of_fits {move : Move} (h : move.Fits options w) :
    move.advance options column w = move.apply options w := by
  cases move with
  | separator s =>
    show (w.writeSeparator s options.wrapColumn column).1 = w.write s
    rw [Writer.writeSeparator, if_pos (fits_separator.1 h)]
  | _ => rfl

/-- Moves that break no line are those outside any list. -/
theorem advances_of_unbroken (h : Unbroken options moves w) :
    advances options column moves w = perform options moves w := by
  induction moves generalizing w with
  | nil => rfl
  | cons move more ih =>
    show advances options column more (move.advance options column w) = _
    rw [Move.advance_of_fits h.1]
    exact ih h.2

theorem Move.apply_wrapColumn (options : Options) (k : Nat) (w : Writer) (move : Move) :
    move.apply { options with wrapColumn := k } w = move.apply options w := by
  cases move <;> rfl

theorem perform_wrapColumn (options : Options) (k : Nat) (moves : List Move) (w : Writer) :
    perform { options with wrapColumn := k } moves w = perform options moves w := by
  induction moves generalizing w with
  | nil => rfl
  | cons move more ih => rw [perform_cons, perform_cons, Move.apply_wrapColumn, ih]

/-- No line breaks if the threshold is far out. -/
theorem unbroken_of_wide (options : Options) (moves : List Move) (w : Writer) :
    ∃ k₀, ∀ k, k₀ ≤ k → Unbroken { options with wrapColumn := k } moves w := by
  induction moves generalizing w with
  | nil => exact ⟨0, fun _ _ => trivial⟩
  | cons move more ih =>
    -- What is written so far does not depend on the threshold as long as it is out of reach.
    have hmove : ∃ k₀, ∀ k, k₀ ≤ k → move.Fits { options with wrapColumn := k } w := by
      cases move with
      | separator s => exact ⟨_, fun _ hk => Move.fits_separator.2 hk⟩
      | _ => exact ⟨0, fun _ _ => trivial⟩
    obtain ⟨k₁, hfits⟩ := hmove
    obtain ⟨k₂, hmore⟩ := ih (move.apply options w)
    refine ⟨max k₁ k₂, fun k hk => ⟨hfits k (by omega), ?_⟩⟩
    rw [Move.apply_wrapColumn]
    exact hmore k (by omega)

/-- A move under a threshold and one without go on beside each other. -/
theorem Move.advance_beside {move : Move} (h : w.InStep v) (hflat : move.IsFlat)
    {separator : String → Prop} (hs : ∀ s, move = .separator s → separator s) :
    Writer.Beside separator (w.indentation.padding column) w v (move.advance options column w)
      (move.apply options v) := by
  cases move with
  | write s => exact .write h hflat
  | gap | fault => exact .refl h
  | newline | lineStart | typeGap | indent | dedent => exact hflat.elim
  | separator s =>
    by_cases hfits : w.position.virtualColumn + s.length ≤ options.wrapColumn
    · rw [advance_of_fits (fits_separator.2 hfits)]
      exact .write h hflat.line
    · exact .writeSeparator h hflat (hs s rfl) hfits

/-- A move changes neither the look of the indentation nor the list in progress. -/
theorem Move.advance_keeps {move : Move} (hflat : move.IsFlat) (w : Writer) :
    (move.advance options column w).indentation = w.indentation ∧
      (move.advance options column w).alignment = w.alignment := by
  cases move with
  | write s =>
    obtain ⟨_, hw⟩ := w.writeChars_grows s.toList
    exact ⟨hw.indentation, w.alignment_writeChars _⟩
  | separator s =>
    obtain ⟨_, hw⟩ := w.writeSeparator_grows s options.wrapColumn column
    exact ⟨hw.indentation, w.alignment_writeSeparator _ _ _⟩
  | gap | fault => exact ⟨rfl, rfl⟩
  | newline | lineStart | typeGap | indent | dedent => exact hflat.elim

theorem alignment_advances (hflat : ∀ move ∈ moves, move.IsFlat) (w : Writer) :
    (advances options column moves w).alignment = w.alignment := by
  induction moves generalizing w with
  | nil => rfl
  | cons move more ih =>
    rw [List.forall_mem_cons] at hflat
    exact (ih hflat.2 _).trans (Move.advance_keeps hflat.1 w).2

/-- Moves under a threshold and moves without go on beside each other. -/
theorem advances_beside (h : w.InStep v) (hflat : ∀ move ∈ moves, move.IsFlat)
    {separator : String → Prop} (hs : ∀ s, .separator s ∈ moves → separator s) :
    Writer.Beside separator (w.indentation.padding column) w v (advances options column moves w)
      (perform options moves v) := by
  induction moves generalizing w v with
  | nil => exact .refl h
  | cons move more ih =>
    rw [List.forall_mem_cons] at hflat
    have hmove : Writer.Beside separator (w.indentation.padding column) w v
        (move.advance options column w) (move.apply options v) :=
      Move.advance_beside h hflat.1 fun s hm => hs s (hm ▸ List.mem_cons_self)
    have hmore := ih hmove.inStep hflat.2 fun s hmem => hs s (.tail _ hmem)
    rw [(Move.advance_keeps hflat.1 w).1] at hmore
    exact hmove.trans hmore

end

/-! ### Documents in one line -/

namespace Doc

variable {options : Options} {d : Doc} {column : Nat} {p : Pass}

/-- The document keeps to the line unless a separator is broken: its texts are in one line, and it
changes no level of indentation. -/
def Flat (d : Doc) (scope : Option TypeScope) : Prop := ∀ move ∈ d.moves scope, move.IsFlat

/-- The moves of a document up to what ends its rendering. -/
def reached (d : Doc) (strict : Bool) (scope : Option TypeScope) : List Move :=
  (d.moves scope).takeWhile fun move => (move.failure strict).isNone

theorem reached_append (first second : Doc) (strict : Bool) (scope : Option TypeScope) :
    (first ++ second).reached strict scope = first.reached strict scope ++
      if (first.moves scope).findSome? (Move.failure strict) = none
      then second.reached strict scope else [] := by
  show (first.moves scope ++ second.moves scope).takeWhile _ = _
  unfold reached
  induction first.moves scope with
  | nil => rfl
  | cons move more ih =>
    cases hmove : move.failure strict with
    | none => simp [hmove, ih]
    | some e => simp [hmove]

/-- Inside a list in progress a flat document makes the moves that it reaches, with every separator
at the column of the list. -/
theorem run_advances (hflat : d.Flat p.scope) (hp : p.writer.alignment = some column) :
    (d.run options column p).pass.writer =
      advances options column (d.reached options.strict p.scope) p.writer := by
  -- On the document. No move of a flat document ends the list, so its column holds throughout.
  induction d generalizing p with
  | empty | malformed => rfl
  | text | separator => rfl
  | newline | lineStart | typeGap => exact (hflat _ (List.mem_singleton_self _)).elim
  | nested body => exact (hflat .indent List.mem_cons_self).elim
  | append first second ih ih' =>
    obtain ⟨hfirst, hsecond⟩ := List.forall_mem_append.1 hflat
    have hq := ih hfirst hp
    have hfail : (first.run options column p).failure =
        (first.moves p.scope).findSome? (Move.failure options.strict) := by
      rw [run_failure, failure_moves]
    rw [show append first second = first ++ second from rfl, reached_append, ← hfail]
    show (Outcome.andThen _ _).pass.writer = _
    unfold Outcome.andThen
    cases hdone : (first.run options column p).failure with
    | some e => simpa using hq
    | none =>
      have hreached : ∀ move ∈ first.reached options.strict p.scope, move.IsFlat := fun move h =>
        hfirst move ((List.takeWhile_prefix _).subset h)
      have hscope := run_scope options first column p
      have hr := ih' (p := (first.run options column p).pass) (hscope ▸ hsecond)
        (hq ▸ (alignment_advances hreached _).trans hp)
      rw [hscope, hq] at hr
      refine hr.trans ?_
      rw [if_pos rfl, advances, advances, advances, List.foldl_append]
  | aligned body ih =>
    -- The list joins the one in progress, and leaves its end to it.
    have hjoin : p.writer.beginList = (p.writer, column, false) := by rw [Writer.beginList, hp]
    have hbody := ih hflat hp
    simp only [run, hjoin, Outcome.onDone]
    split
    · exact hbody
    · exact hbody
  | node key body ih => exact ih hflat hp
  | synthetic key body ih =>
    have hmarked : body.Flat (p.markSynthetic key).scope := by
      rw [Pass.scope_markSynthetic]
      exact hflat
    have hbody := ih hmarked (by simpa using hp)
    rw [Pass.scope_markSynthetic, Pass.writer_markSynthetic] at hbody
    exact (Pass.writer_unmarkSynthetic _ _ _).trans hbody
  | inside scope body ih => exact ih hflat hp
  | perScope body ih => exact ih p.scope hflat hp
  | unsupported gap remark ih =>
    have hremark := ih (fun move h => hflat move (.tail _ h)) hp
    unfold reached at hremark ⊢
    rw [run, moves, List.takeWhile_cons, Move.failure]
    cases hstrict : options.strict with
    | true => rfl
    | false =>
      rw [hstrict] at hremark
      exact hremark

theorem flat_compositional (scope : Option TypeScope) : Compositional (·.Flat scope) where
  empty := fun _ hnil => nomatch hnil
  append _ _ h h' := List.forall_mem_append.2 ⟨h, h'⟩

/-- A list whose items keep to the line does so. -/
theorem flat_separated {s : String} (hs : IsSeparator s) {items : List Doc}
    {scope : Option TypeScope} (h : ∀ item ∈ items, item.Flat scope) :
    (separated s items).Flat scope :=
  (flat_compositional scope).separated (fun _ h => h) (List.forall_mem_singleton.2 hs) h

/-- An outermost list makes the moves that it reaches, with every separator at the column where it
began, and ends itself. -/
theorem run_aligned (options : Options) (column : Nat) (hflat : d.Flat p.scope)
    (hp : p.writer.alignment = none) :
    let o := (aligned d).run options column p
    o.pass.writer.text = (advances options p.writer.nextPosition.virtualColumn
      (d.reached options.strict p.scope) p.writer.inList).text ∧
    (o.failure = none → o.pass.writer.alignment = none) := by
  have hbegin : p.writer.beginList =
      (p.writer.inList, p.writer.nextPosition.virtualColumn, true) := by
    rw [Writer.beginList, hp]
    rfl
  have hbody : (d.run options p.writer.nextPosition.virtualColumn
        { p with writer := p.writer.inList }).pass.writer =
      advances options p.writer.nextPosition.virtualColumn (d.reached options.strict p.scope)
        p.writer.inList := run_advances hflat rfl
  have htext := congrArg Writer.text hbody
  simp only [run, hbegin, Outcome.onDone]
  split
  · exact ⟨htext, fun _ => rfl⟩
  · next hfailed => exact ⟨htext, fun hdone => absurd (hfailed.symm.trans hdone) (by simp)⟩

/-- A list that is begun when none is in progress, in any state of the writer and under any options,
and whose items keep to the line, among them further lists. It adds what it adds under any threshold
that is far enough out, which is one line, with some separators broken. After every line feed there
is padding to the column at which the list began, the indentation that was due counted in; padding
is what its loops come to; and no list is in progress after one that does not fail. -/
theorem separated_wraps (options : Options) (column : Nat) {p : Pass} {s : String}
    {items : List Doc} (hs : IsSeparator s) (hitems : ∀ item ∈ items, item.Flat p.scope)
    (hp : p.writer.alignment = none) :
    let list := separated s items
    let start := p.writer.nextPosition.virtualColumn
    let o := list.run options column p
    (∃ wrapped plain : List Char,
      o.pass.writer.text.toList = p.writer.text.toList ++ wrapped ∧
      (∃ k₀, ∀ k, k₀ ≤ k →
        let wide := list.run { options with wrapColumn := k } column p
        wide.failure = o.failure ∧
          wide.pass.writer.text.toList = p.writer.text.toList ++ plain) ∧
      '\n' ∉ plain ∧
      Wraps (fun s => .separator s ∈ list.moves p.scope) (p.writer.indentation.padding start)
        wrapped plain ∧
      ∀ before after, wrapped = before ++ '\n' :: after → ∃ pad rest, after = pad ++ rest ∧
        (∀ c ∈ pad, c = '\t' ∨ c = ' ') ∧
        (p.writer.position.scan p.writer.indentation.width
          (before ++ '\n' :: pad)).virtualColumn = start) ∧
    (∀ w c, Writer.Pads c w (w.padTo c)) ∧
    (o.failure = none → o.pass.writer.alignment = none) := by
  intro list start o
  obtain ⟨d, hd⟩ : ∃ d, list = aligned d := ⟨_, rfl⟩
  have hlist : ∀ move ∈ list.moves p.scope, move.IsFlat := flat_separated hs hitems
  have hmoves : list.moves p.scope = d.moves p.scope := by rw [hd, moves]
  have hflat : d.Flat p.scope := fun move h => hlist move (by rwa [hmoves])
  have hsub : ∀ move ∈ d.reached options.strict p.scope, move ∈ list.moves p.scope := by
    intro move hmove
    rw [hmoves]
    exact (List.takeWhile_prefix _).subset hmove
  -- The moves that the run reaches are made twice, with separators that break and with none.
  obtain ⟨wrapped, plain, hwrapped, hplain, hwraps⟩ :=
    (advances_beside (Writer.InStep.refl p.writer.inList)
      (fun move h => hlist move (hsub move h)) fun s h => hsub _ h).texts
  -- Far enough out no separator breaks, and what is added is the plain text.
  obtain ⟨k₀, hwide⟩ :=
    unbroken_of_wide options (d.reached options.strict p.scope) p.writer.inList
  obtain ⟨htext, hend⟩ := run_aligned options column hflat hp
  rw [← hd] at htext hend
  refine ⟨⟨wrapped, plain, ?_, ⟨k₀, fun k hk => ⟨?_, ?_⟩⟩, hwraps.lineFeed_not_mem fun s => hlist _,
    hwraps, fun before after hbreak => ?_⟩, Writer.pads_padTo, ?_⟩
  · exact (congrArg String.toList htext).trans hwrapped
  · rw [run_failure, run_failure]
  · rw [hd, (run_aligned { options with wrapColumn := k } column hflat hp).1,
      advances_of_unbroken (hwide k hk), perform_wrapColumn]
    exact hplain
  · obtain ⟨rest, hrest⟩ := hwraps.padded (fun s => hlist _)
      (p.writer.indentation.lineFeed_not_mem_padding start) hbreak
    exact ⟨_, rest, hrest.symm, fun c => p.writer.indentation.blank_of_mem_padding start,
      p.writer.indentation.virtualColumn_padding start p.writer.position before⟩
  · exact hend

/-- Names in a list, some of them in a list of their own. -/
def roster : List Doc :=
  [text "alpha", separated " | " [text "beta", text "gamma"], text "delta"]

/-- A call is begun one level deep, where tabs are four columns wide. -/
def called : Pass :=
  { Pass.initial .initial with
    writer := ({ Writer.new ⟨true, 4⟩ with level := 1 } : Writer).write "call(" }

theorem comma_isSeparator : IsSeparator ", " := ⟨by decide, ',', by decide, by decide⟩

theorem roster_flat : ∀ item ∈ roster, item.Flat none := by
  have hbar : IsSeparator " | " := ⟨by decide, '|', by decide, by decide⟩
  have hword : ∀ s : String, '\n' ∉ s.toList → (text s).Flat none := fun _ hs =>
    List.forall_mem_singleton.2 hs
  refine List.forall_mem_cons.2 ⟨hword _ (by decide), List.forall_mem_cons.2 ⟨?_, ?_⟩⟩
  · refine flat_separated hbar (List.forall_mem_cons.2 ⟨hword _ (by decide), ?_⟩)
    exact List.forall_mem_singleton.2 (hword _ (by decide))
  · exact List.forall_mem_singleton.2 (hword _ (by decide))

end Doc

end SourcePrinter
