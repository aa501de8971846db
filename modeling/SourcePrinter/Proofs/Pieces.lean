import SourcePrinter.Proofs.Shift

/-! Pieces of a text. Where a document hosts others, each on lines of its own and perhaps one level
deeper, its text has their texts in order, each as it is by itself but for the margin. -/

namespace SourcePrinter

/-- Texts that end their lines, in order, and blank lines where gaps are allowed. -/
inductive Stacked (gaps : Prop) : List (List Char) → List Char → Prop where
  | nil : Stacked gaps [] []
  | text {t s : List Char} {ts : List (List Char)} :
    endsLine true t = true → Stacked gaps ts s → Stacked gaps (t :: ts) (t ++ s)
  | gap {s : List Char} {ts : List (List Char)} :
    gaps → Stacked gaps ts s → Stacked gaps ts ('\n' :: s)

/-- Without gaps there is one text for each list. -/
theorem Stacked.eq_flatten {ts : List (List Char)} {s : List Char} (h : Stacked False ts s) :
    s = ts.flatten := by
  induction h with
  | nil => rfl
  | text _ _ ih => rw [ih]; rfl
  | gap hgaps => exact hgaps.elim

theorem Stacked.gap_many {gaps : Prop} {ts : List (List Char)} {s : List Char} (hgaps : gaps)
    (h : Stacked gaps ts s) (n : Nat) : Stacked gaps ts (List.replicate n '\n' ++ s) := by
  induction n with
  | zero => exact h
  | succ n ih => exact .gap hgaps ih

/-! ### Moves from line to line -/

/-- Moves that start a line where they are done, given that one starts where they begin if that is
needed. -/
def Starts (needed : Prop) (moves : List Move) : Prop :=
  ∀ options w, (needed → w.atLineStart = true) → (perform options moves w).atLineStart = true

/-- Moves that lead from the start of a line to the start of a line. -/
abbrev Tidy (moves : List Move) : Prop := Starts True moves

section

variable {needed : Prop} {a b : List Move}

theorem Starts.nil : Tidy [] := fun _ _ h => h trivial

theorem Starts.append (ha : Starts needed a) (hb : Tidy b) : Starts needed (a ++ b) := by
  intro options w hw
  rw [perform_append]
  exact hb options _ fun _ => ha options w hw

/-- What comes before does not matter if nothing is needed. -/
theorem Starts.after (a : List Move) (hb : Starts False b) : Starts needed (a ++ b) := by
  intro options w _
  rw [perform_append]
  exact hb options _ nofun

theorem Starts.newline (a : List Move) : Starts needed (a ++ [.newline]) := by
  intro options w _
  rw [perform_append]
  rfl

theorem Starts.lineStart (a : List Move) : Starts needed (a ++ [.lineStart]) := by
  intro options w _
  rw [perform_append]
  show (perform options a w).ensureLineStart.atLineStart = true
  unfold Writer.ensureLineStart
  split
  · next h => exact h
  · rfl

end

/-! ### Moves and writers -/

namespace Writer

theorem toList_newline (w : Writer) : w.newline.text.toList = w.text.toList ++ ['\n'] :=
  (put_adds w '\n').text

theorem toList_blankLines (w : Writer) (count : Nat) :
    (w.blankLines count).text.toList = w.text.toList ++ List.replicate count '\n' := by
  induction count generalizing w with
  | zero => exact (List.append_nil _).symm
  | succ count ih => rw [blankLines, ih, toList_newline, List.append_assoc]; rfl

theorem atLineStart_blankLines {w : Writer} (h : w.atLineStart = true) (count : Nat) :
    (w.blankLines count).atLineStart = true := by
  induction count generalizing w with
  | zero => exact h
  | succ count ih => exact ih rfl

end Writer

namespace Move

variable (options : Options) (w : Writer)

theorem indentation_apply (move : Move) : (move.apply options w).indentation = w.indentation := by
  cases move with
  | write s | separator s =>
    obtain ⟨_, h⟩ := Writer.writeChars_grows w s.toList
    exact h.indentation
  | lineStart =>
    obtain ⟨_, h⟩ := Writer.ensureLineStart_grows w
    exact h.indentation
  | typeGap =>
    obtain ⟨_, h⟩ := Writer.blankLines_grows w options.typeGap
    exact h.indentation
  | newline | indent | dedent | gap | fault => rfl

theorem text_apply (move : Move) : w.text.toList <+: (move.apply options w).text.toList := by
  cases move with
  | write s | separator s =>
    obtain ⟨_, h⟩ := Writer.writeChars_grows w s.toList
    exact ⟨_, h.text.symm⟩
  | lineStart =>
    obtain ⟨_, h⟩ := Writer.ensureLineStart_grows w
    exact ⟨_, h.text.symm⟩
  | newline => exact ⟨_, w.toList_newline.symm⟩
  | typeGap => exact ⟨_, (w.toList_blankLines options.typeGap).symm⟩
  | indent | dedent | gap | fault => exact List.prefix_refl _

theorem ended_apply {w : Writer} (h : w.Ended) (move : Move) : (move.apply options w).Ended := by
  cases move with
  | write s | separator s => exact h.writeChars s.toList
  | newline => exact .newline w
  | lineStart => exact h.ensureLineStart
  | typeGap => exact h.blankLines options.typeGap
  | indent | dedent | gap | fault => exact h

end Move

section

variable (options : Options) (moves : List Move) (w : Writer)

theorem indentation_perform : (perform options moves w).indentation = w.indentation := by
  induction moves generalizing w with
  | nil => rfl
  | cons move more ih => exact (ih _).trans (move.indentation_apply options w)

theorem text_perform : w.text.toList <+: (perform options moves w).text.toList := by
  induction moves generalizing w with
  | nil => exact List.prefix_refl _
  | cons move more ih => exact (move.text_apply options w).trans (ih _)

theorem ended_perform {w : Writer} (h : w.Ended) : (perform options moves w).Ended := by
  induction moves generalizing w with
  | nil => exact h
  | cons move more ih => exact ih (move.ended_apply options h)

end

/-! ### Piles -/

/-- The text that moves give by themselves. -/
def aloneText (options : Options) (moves : List Move) : List Char :=
  (perform options moves (.new options.indentation)).text.toList

/-- Moves that do pieces one after the other, with blank lines between them where gaps are
allowed. -/
inductive Pile (gaps : Prop) : List (List Move) → List Move → Prop where
  | nil : Pile gaps [] []
  | piece {a moves : List Move} {pieces : List (List Move)} :
    Balanced a → Tidy a → Pile gaps pieces moves → Pile gaps (a :: pieces) (a ++ moves)
  | newline {moves : List Move} {pieces : List (List Move)} :
    gaps → Pile gaps pieces moves → Pile gaps pieces (.newline :: moves)
  | typeGap {moves : List Move} {pieces : List (List Move)} :
    gaps → Pile gaps pieces moves → Pile gaps pieces (.typeGap :: moves)

namespace Pile

variable {gaps : Prop} {pieces : List (List Move)} {moves : List Move}

/-- Nothing in a piece stands in the way if nothing in the pile does. -/
theorem failure_eq_none {strict : Bool} (h : Pile gaps pieces moves)
    (hf : moves.findSome? (Move.failure strict) = none) :
    ∀ a ∈ pieces, a.findSome? (Move.failure strict) = none := by
  induction h with
  | nil => nofun
  | piece _ _ _ ih =>
    rw [List.findSome?_append, Option.or_eq_none_iff] at hf
    exact List.forall_mem_cons.2 ⟨hf.1, ih hf.2⟩
  | newline _ _ ih | typeGap _ _ ih => exact ih hf

/-- A writer at the start of a line adds the texts of the pieces in order, with the margin of its
level. -/
theorem text_perform {options : Options} (h : Pile gaps pieces moves) {w : Writer}
    (hi : w.indentation = options.indentation) (hw : w.atLineStart = true)
    (hu : Unbroken options moves w) :
    (∃ s, (perform options moves w).text.toList = w.text.toList ++ s ∧
      Stacked gaps (pieces.map fun a =>
        shift (options.indentation.margin w.level) (aloneText options a)) s) ∧
      (∀ a ∈ pieces, Unbroken options a (.new options.indentation)) ∧
      (perform options moves w).atLineStart = true ∧ (perform options moves w).level = w.level := by
  induction h generalizing w with
  | nil => exact ⟨⟨[], (List.append_nil _).symm, .nil⟩, nofun, hw, rfl⟩
  | @piece a moves pieces hbalanced htidy _ ih =>
    -- At the start of a line, any writer is inset against a new one by its own level.
    have hinset : Writer.Inset w.level w.text.toList w (.new options.indentation) :=
      { indentation := hi, level := rfl, atLineStart := hw, ended := rfl
        text := (List.append_nil _).symm, column := Nat.zero_le _ }
    obtain ⟨ha, hu⟩ := unbroken_append.1 hu
    obtain ⟨halone, hafter⟩ := hbalanced.inset hinset ha
    have hlevel : (perform options a w).level = w.level := hbalanced.level_perform w
    have hstart := htidy options w fun _ => hw
    obtain ⟨⟨s, htext, hs⟩, hrest, hend, hdeep⟩ :=
      ih ((indentation_perform ..).trans hi) hstart hu
    rw [hlevel] at hs hdeep
    have hmargin : (perform options a (.new options.indentation)).indentation =
        options.indentation := indentation_perform ..
    have hends : endsLine true (shift (options.indentation.margin w.level)
        (aloneText options a)) = true := by
      have hended : (perform options a (.new options.indentation)).Ended :=
        ended_perform options a (w := .new options.indentation) rfl
      rw [shift, endsLine_shiftFrom]
      exact hended.symm.trans (htidy options _ fun _ => rfl)
    rw [perform_append]
    refine ⟨⟨_, ?_, .text hends hs⟩, List.forall_mem_cons.2 ⟨halone, hrest⟩, hend, hdeep⟩
    rw [htext, hafter.text, hmargin, List.append_assoc]
    rfl
  | @newline moves pieces hgaps _ ih =>
    obtain ⟨⟨s, htext, hs⟩, hrest⟩ := ih (w := w.newline) hi rfl hu.2
    refine ⟨⟨'\n' :: s, ?_, .gap hgaps hs⟩, hrest⟩
    rw [perform_cons]
    exact htext.trans (by rw [w.toList_newline, List.append_assoc]; rfl)
  | @typeGap moves pieces hgaps _ ih =>
    obtain ⟨_, hgrows⟩ := Writer.blankLines_grows w options.typeGap
    obtain ⟨⟨s, htext, hs⟩, hrest, hend, hdeep⟩ :=
      ih (hgrows.indentation.trans hi) (Writer.atLineStart_blankLines hw _) hu.2
    rw [hgrows.level] at hs hdeep
    refine ⟨⟨_, ?_, hs.gap_many hgaps options.typeGap⟩, hrest, hend, hdeep⟩
    rw [perform_cons]
    exact htext.trans (by rw [w.toList_blankLines, List.append_assoc])

end Pile

/-! ### Hosts -/

/-- Moves that lead up to others, `levels` deeper: they start a line. -/
structure Leads (needed : Prop) (levels : Nat) (moves : List Move) : Prop where
  starts : Starts needed moves
  level : ∀ options w, (perform options moves w).level = w.level + levels

/-- The moves `outer` do the moves `inner` from the start of a line, `levels` deeper. -/
def Hosts (needed : Prop) (levels : Nat) (inner outer : List Move) : Prop :=
  ∃ pre post, Leads needed levels pre ∧ outer = pre ++ (inner ++ post)

namespace Hosts

variable {needed : Prop} {k j : Nat} {a b inner middle outer : List Move}

theorem refl (inner : List Move) : Hosts True 0 inner inner :=
  ⟨[], [], ⟨.nil, fun _ _ => rfl⟩, (List.append_nil _).symm⟩

theorem trans (h : Hosts needed k middle outer) (h' : Hosts True j inner middle) :
    Hosts needed (k + j) inner outer := by
  obtain ⟨pre, post, hpre, rfl⟩ := h
  obtain ⟨pre', post', hpre', rfl⟩ := h'
  refine ⟨pre ++ pre', post' ++ post, ⟨hpre.starts.append hpre'.starts, fun options w => ?_⟩, ?_⟩
  · rw [perform_append, hpre'.level, hpre.level, Nat.add_assoc]
  · simp only [List.append_assoc]

/-- What comes first leads on if it leaves its levels. -/
theorem left (ha : Balanced a) (ht : needed → Tidy a) (h : Hosts needed k inner outer) :
    Hosts needed k inner (a ++ outer) := by
  obtain ⟨pre, post, hpre, rfl⟩ := h
  refine ⟨a ++ pre, post, ⟨fun options w hw => ?_, fun options w => ?_⟩, ?_⟩
  · rw [perform_append]
    exact hpre.starts options _ fun hneeded => ht hneeded options w fun _ => hw hneeded
  · rw [perform_append, hpre.level, ha.level_perform]
  · rw [List.append_assoc]

theorem right (h : Hosts needed k inner outer) (b : List Move) :
    Hosts needed k inner (outer ++ b) := by
  obtain ⟨pre, post, hpre, rfl⟩ := h
  exact ⟨pre, post ++ b, hpre, by simp only [List.append_assoc]⟩

theorem needing (h : Hosts False k inner outer) : Hosts True k inner outer := by
  obtain ⟨pre, post, hpre, rfl⟩ := h
  exact ⟨pre, post, ⟨fun options w _ => hpre.starts options w nofun, hpre.level⟩, rfl⟩

/-- A line that ends in front of a deeper level. -/
theorem opened (s : String) (inner b : List Move) :
    Hosts False 1 inner ([.write s, .newline, .indent] ++ (inner ++ b)) := by
  refine ⟨_, b, ⟨fun _ _ _ => rfl, fun options w => ?_⟩, rfl⟩
  obtain ⟨_, h⟩ := Writer.writeChars_grows w s.toList
  exact congrArg (· + 1) h.level

/-- The text of a host has the texts of the pieces in a pile. -/
theorem text_perform {gaps : Prop} {options : Options} {pieces : List (List Move)}
    (h : Hosts True k inner outer) (hp : Pile gaps pieces inner)
    (hu : Unbroken options outer (.new options.indentation)) :
    (∀ a ∈ pieces, Unbroken options a (.new options.indentation)) ∧
      ∃ before middle after, aloneText options outer = before ++ middle ++ after ∧
        endsLine true before = true ∧
        Stacked gaps (pieces.map fun a =>
          shift (options.indentation.margin k) (aloneText options a)) middle := by
  obtain ⟨pre, post, hpre, rfl⟩ := h
  obtain ⟨w, hw⟩ : ∃ w, w = perform options pre (.new options.indentation) := ⟨_, rfl⟩
  have hi : w.indentation = options.indentation := hw ▸ indentation_perform ..
  have hstart : w.atLineStart = true := hw ▸ hpre.starts options _ fun _ => rfl
  have hlevel : w.level = k := by
    rw [hw, hpre.level]
    exact Nat.zero_add k
  have hended : w.Ended := by
    rw [hw]
    exact ended_perform options pre (w := .new options.indentation) rfl
  obtain ⟨-, hu⟩ := unbroken_append.1 hu
  rw [← hw] at hu
  obtain ⟨hmiddle, -⟩ := unbroken_append.1 hu
  obtain ⟨⟨middle, htext, hs⟩, halone, -⟩ := hp.text_perform hi hstart hmiddle
  obtain ⟨after, hafter⟩ := text_perform options post (perform options inner w)
  rw [hlevel] at hs
  refine ⟨halone, w.text.toList, middle, after, ?_, hended.symm.trans hstart, hs⟩
  rw [aloneText, perform_append, perform_append, ← hw, ← hafter, htext]

end Hosts

/-! ### Blocks -/

/-- Pieces without gaps between a line that opens a block and the line that closes it. -/
theorem Pile.text_block {options : Options} {pieces : List (List Move)}
    {opening inner closing : List Move} {head : List Char} (hp : Pile False pieces inner)
    (ho : aloneText options opening = head)
    (hl : (perform options opening (.new options.indentation)).level = 0)
    (hc : ∀ w : Writer, w.atLineStart = false →
      (perform options closing w).text.toList = w.text.toList ++ ['\n'])
    (hu : Unbroken options (opening ++ [.newline, .indent] ++
      (inner ++ .dedent :: .write "\x7d" :: closing)) (.new options.indentation)) :
    (∀ a ∈ pieces, Unbroken options a (.new options.indentation)) ∧
      aloneText options (opening ++ [.newline, .indent] ++
          (inner ++ .dedent :: .write "\x7d" :: closing)) =
        head ++ '\n' :: (pieces.map fun a =>
          shift (options.indentation.margin 1) (aloneText options a)).flatten ++ ['\x7d', '\n'] := by
  obtain ⟨w, hw⟩ : ∃ w, w = perform options opening (.new options.indentation) := ⟨_, rfl⟩
  have hi : w.indentation = options.indentation := hw ▸ indentation_perform ..
  rw [aloneText, ← hw] at ho
  rw [← hw] at hl
  obtain ⟨-, hu⟩ := unbroken_append.1 hu
  rw [perform_append, ← hw] at hu
  obtain ⟨hinner, -⟩ := unbroken_append.1 hu
  have hmiddle := hp.text_perform (w := w.newline.indent) hi rfl hinner
  obtain ⟨⟨middle, htext, hs⟩, halone, hstart, hlevel⟩ := hmiddle
  have hdeep : w.newline.indent.level = 1 := congrArg (· + 1) hl
  rw [hdeep] at hs hlevel
  refine ⟨halone, ?_⟩
  obtain ⟨v, hv⟩ : ∃ v, v = perform options inner w.newline.indent := ⟨_, rfl⟩
  rw [← hv] at htext hstart hlevel
  -- Back at the outer level, nothing stands before the closing brace.
  have hdue : v.dedent.due = [] := by
    rw [Writer.due_of_start (w := v.dedent) hstart]
    show Indentation.margin _ (v.level - 1) = []
    rw [hlevel, Indentation.margin_zero]
  have hbrace : (v.dedent.write "\x7d").text.toList = v.text.toList ++ ['\x7d'] := by
    have hchars : (v.dedent.writeChars ['\x7d']).text.toList = _ :=
      Writer.writeChars_text (by decide) nofun
    rw [hdue, List.append_nil] at hchars
    exact hchars
  have hbegun : (v.dedent.write "\x7d").atLineStart = false := v.dedent.atLineStart_settle
  calc aloneText options (opening ++ [.newline, .indent] ++
        (inner ++ .dedent :: .write "\x7d" :: closing))
    _ = (perform options closing (v.dedent.write "\x7d")).text.toList := by
      simp only [aloneText, perform_append, perform_cons, perform_nil, hv, hw]
      rfl
    _ = w.newline.indent.text.toList ++ middle ++ ['\x7d'] ++ ['\n'] := by
      rw [hc _ hbegun, hbrace, htext]
    _ = _ := by
      show w.newline.text.toList ++ middle ++ ['\x7d'] ++ ['\n'] = _
      rw [w.toList_newline, ho, hs.eq_flatten]
      simp only [List.append_assoc, List.cons_append, List.nil_append]

end SourcePrinter
