import SourcePrinter.Text.Writer

/-! How a text grows: what the operations of a writer add to it, and where that takes the
position. -/

namespace SourcePrinter

/-! ### Positions -/

namespace Position

variable (tabWidth : Nat) (p : Position)

theorem le_step (c : Char) : p ≤ step tabWidth p c := by
  unfold step
  split
  · exact .inl (Nat.lt_succ_self _)
  · exact .inr ⟨rfl, .inl (Nat.lt_succ_self _)⟩

theorem le_scan (text : List Char) : p ≤ scan tabWidth p text := by
  induction text generalizing p with
  | nil => exact le_refl p
  | cons c more ih => exact le_trans (le_step tabWidth p c) (ih _)

@[simp] theorem scan_cons (c : Char) (text : List Char) :
    scan tabWidth p (c :: text) = scan tabWidth (step tabWidth p c) text := rfl

/-- The bytes of a text. -/
def bytes (text : List Char) : Nat := text.foldr (fun c total => c.utf8Size + total) 0

@[simp] theorem bytes_nil : bytes [] = 0 := rfl

@[simp] theorem bytes_cons (c : Char) (text : List Char) :
    bytes (c :: text) = c.utf8Size + bytes text := rfl

@[simp] theorem bytes_append (s t : List Char) : bytes (s ++ t) = bytes s + bytes t := by
  induction s with
  | nil => simp
  | cons c more ih => rw [List.cons_append, bytes_cons, ih, bytes_cons, Nat.add_assoc]

theorem bytes_pos {text : List Char} (h : text ≠ []) : 0 < bytes text := by
  cases text with
  | nil => exact absurd rfl h
  | cons c more =>
    have := Char.utf8Size_pos c
    rw [bytes_cons]
    omega

theorem offset_scan (text : List Char) :
    (scan tabWidth p text).offset = p.offset + bytes text := by
  induction text generalizing p with
  | nil => rfl
  | cons c more ih =>
    rw [scan_cons, ih, bytes_cons]
    unfold step
    split
    · next hc =>
      subst hc
      have : '\n'.utf8Size = 1 := by decide
      simp only
      omega
    · simp only
      omega

/-- The position after one character of the line repeated, a character of one byte. -/
theorem scan_replicate {c : Char} (hc : c ≠ '\n') (hsize : c.utf8Size = 1) (n : Nat) :
    scan tabWidth p (List.replicate n c) =
      { p with
        column := p.column + n
        virtualColumn := p.virtualColumn + n * (if c = '\t' then tabWidth else 1)
        offset := p.offset + n } := by
  induction n generalizing p with
  | zero => simp
  | succ n ih =>
    rw [List.replicate_succ, scan_cons, ih, step, if_neg hc, hsize]
    simp only [Nat.succ_mul, mk.injEq, true_and]
    omega

/-- Only the empty text leads back to where it started. -/
theorem scan_eq_self {text : List Char} : scan tabWidth p text = p ↔ text = [] := by
  refine ⟨fun h => Decidable.byContradiction fun hne => ?_, fun h => by rw [h, scan_nil]⟩
  have h1 := offset_scan tabWidth p text
  have h2 := bytes_pos hne
  rw [h] at h1
  omega

/-- A text that begins with a line feed leads to another line. -/
theorem line_lt_scan (text : List Char) : p.line < (scan tabWidth p ('\n' :: text)).line := by
  have h := le_scan tabWidth (step tabWidth p '\n') text
  rw [scan_cons]
  simp only [step, if_true, le_def] at h ⊢
  omega

end Position

/-! ### Writers -/

namespace Writer

/-- The indentation that is still due. -/
def due (w : Writer) : List Char :=
  if w.atLineStart then List.replicate (w.indentation.fill w.level).1 (w.indentation.fill w.level).2
  else []

theorem lineFeed_not_mem_due (w : Writer) : '\n' ∉ w.due := by
  unfold due
  split
  · intro h
    have hc := List.eq_of_mem_replicate h
    unfold Indentation.fill at hc
    split at hc <;> cases hc
  · exact List.not_mem_nil

/-- One writer is another with characters added. -/
structure Adds (w : Writer) (added : List Char) (w' : Writer) : Prop where
  indentation : w'.indentation = w.indentation
  text : w'.text.toList = w.text.toList ++ added
  position : w'.position = w.position.scan w.indentation.width added

/-- Characters are added as the layout wants it: a line begins with its indentation, unless it stays
empty. -/
structure Grows (w : Writer) (added : List Char) (w' : Writer) : Prop extends w.Adds added w' where
  level : w'.level = w.level
  idle : added = [] → w'.atLineStart = w.atLineStart
  lead : added = [] ∨ (∃ rest, added = '\n' :: rest) ∨ w.due <+: added

variable {w v u : Writer} {a b : List Char}

theorem Adds.refl (w : Writer) : w.Adds [] w := ⟨rfl, (List.append_nil _).symm, rfl⟩

theorem Adds.trans (h : w.Adds a v) (h' : v.Adds b u) : w.Adds (a ++ b) u where
  indentation := h'.indentation.trans h.indentation
  text := by rw [h'.text, h.text, List.append_assoc]
  position := by rw [h'.position, h.position, h.indentation, Position.scan_append]

namespace Grows

theorem refl (w : Writer) : w.Grows [] w := ⟨.refl w, rfl, fun _ => rfl, .inl rfl⟩

/-- After the first characters no indentation is due for the place where they began. -/
theorem adds (h : w.Grows a v) (ha : a ≠ []) (h' : v.Adds b u) (hl : u.level = v.level) :
    w.Grows (a ++ b) u where
  toAdds := h.toAdds.trans h'
  level := hl.trans h.level
  idle hab := absurd (List.append_eq_nil_iff.1 hab).1 ha
  lead := by
    rcases h.lead with hn | ⟨rest, rfl⟩ | hd
    · exact absurd hn ha
    · exact .inr (.inl ⟨rest ++ b, rfl⟩)
    · exact .inr (.inr (hd.trans (List.prefix_append a b)))

theorem trans (h : w.Grows a v) (h' : v.Grows b u) : w.Grows (a ++ b) u := by
  by_cases ha : a = []
  · subst ha
    have hdue : v.due = w.due := by
      unfold due
      rw [h.idle rfl, h.indentation, h.level]
    exact
      { toAdds := h.toAdds.trans h'.toAdds
        level := h'.level.trans h.level
        idle := fun hb => (h'.idle hb).trans (h.idle rfl)
        lead := hdue ▸ h'.lead }
  · exact h.adds ha h'.toAdds h'.level

/-- The position moves if anything is added, past the indentation that was due. -/
theorem position_eq_iff (h : w.Grows a v) : v.position = w.position ↔ a = [] := by
  rw [h.position]
  exact Position.scan_eq_self _ _

theorem position_le (h : w.Grows a v) : w.position ≤ v.position := by
  rw [h.position]
  exact Position.le_scan _ _ _

end Grows

theorem position_le (h : ∃ added, w.Grows added v) : w.position ≤ v.position := by
  obtain ⟨_, hw⟩ := h
  exact hw.position_le

/-- The next position is the one after the indentation that is due. -/
theorem nextPosition_eq (w : Writer) :
    w.nextPosition = w.position.scan w.indentation.width w.due := by
  unfold nextPosition due
  cases hs : w.atLineStart with
  | false => rfl
  | true =>
    have hspace : ∀ n, w.position.scan w.indentation.width (List.replicate n ' ') = _ :=
      fun n => Position.scan_replicate _ _ (by decide) (by decide) n
    have htab : ∀ n, w.position.scan w.indentation.width (List.replicate n '\t') = _ :=
      fun n => Position.scan_replicate _ _ (by decide) (by decide) n
    cases ht : w.indentation.useTabs with
    | false => simp [Indentation.fill, ht, hspace]
    | true => simp [Indentation.fill, ht, htab]

theorem position_le_nextPosition (w : Writer) : w.position ≤ w.nextPosition := by
  rw [nextPosition_eq]
  exact Position.le_scan _ _ _

/-- What is added at the start of a line ends past the indentation. -/
theorem Grows.nextPosition_le (h : w.Grows a v) (ha : a ≠ []) : w.nextPosition ≤ v.position := by
  rw [h.position]
  rcases h.lead with hn | ⟨rest, rfl⟩ | ⟨rest, rfl⟩
  · exact absurd hn ha
  · have hl := Position.line_lt_scan w.indentation.width w.position rest
    have hn : w.nextPosition.line = w.position.line := by
      unfold nextPosition
      split <;> rfl
    rw [Position.le_def]
    omega
  · rw [nextPosition_eq, Position.scan_append]
    exact Position.le_scan _ _ _

/-- The indentation that is due stays due until something is added. -/
theorem Grows.nextPosition_eq (h : w.Grows [] v) : v.nextPosition = w.nextPosition := by
  have hdue : v.due = w.due := by
    unfold due
    rw [h.idle rfl, h.indentation, h.level]
  rw [Writer.nextPosition_eq, Writer.nextPosition_eq, hdue, h.indentation, h.position]
  rfl

/-! ### The operations -/

theorem put_adds (w : Writer) (c : Char) : w.Adds [c] (w.put c) := ⟨rfl, by simp [put], rfl⟩

theorem putMany_adds (w : Writer) (c : Char) (n : Nat) :
    w.Adds (List.replicate n c) (w.putMany c n) := by
  induction n generalizing w with
  | zero => exact .refl w
  | succ n ih => exact (put_adds w c).trans (ih (w.put c))

@[simp] theorem level_putMany (w : Writer) (c : Char) (n : Nat) :
    (w.putMany c n).level = w.level := by
  induction n generalizing w with
  | zero => rfl
  | succ n ih => exact ih (w.put c)

theorem padTo_adds (w : Writer) (column : Nat) : ∃ added, w.Adds added (w.padTo column) := by
  unfold padTo
  have hs := putMany_adds (w.putMany '\t' (if w.indentation.useTabs ∧ 0 < w.indentation.width then
    (column - w.position.virtualColumn) / w.indentation.width else 0)) ' '
  exact ⟨_, (putMany_adds w '\t' _).trans ⟨(hs _).indentation, (hs _).text, (hs _).position⟩⟩

@[simp] theorem level_padTo (w : Writer) (column : Nat) : (w.padTo column).level = w.level := by
  simp [padTo]

theorem newline_grows (w : Writer) : w.Grows ['\n'] w.newline where
  toAdds := ⟨rfl, (put_adds w '\n').text, rfl⟩
  level := rfl
  idle h := nomatch h
  lead := .inr (.inl ⟨[], rfl⟩)

theorem settle_adds (w : Writer) : w.Adds w.due w.settle := by
  unfold due settle
  split
  · have h := putMany_adds w (w.indentation.fill w.level).2 (w.indentation.fill w.level).1
    exact ⟨h.indentation, h.text, h.position⟩
  · exact .refl w

@[simp] theorem level_settle (w : Writer) : w.settle.level = w.level := by
  unfold settle
  split
  · exact level_putMany _ _ _
  · rfl

theorem atLineStart_settle (w : Writer) : w.settle.atLineStart = false := by
  unfold settle
  split
  · rfl
  · next h => exact Bool.eq_false_iff.2 h

/-- A character other than a line feed stands after the indentation that was due. -/
theorem put_settle_grows (w : Writer) (c : Char) : w.Grows (w.due ++ [c]) (w.settle.put c) where
  toAdds := (settle_adds w).trans (put_adds _ c)
  level := level_settle w
  idle h := nomatch (List.append_eq_nil_iff.1 h).2
  lead := .inr (.inr (List.prefix_append _ _))

theorem writeChar_grows (w : Writer) (c : Char) : ∃ added, w.Grows added (w.writeChar c) := by
  unfold writeChar
  split
  · exact ⟨_, newline_grows w⟩
  · exact ⟨_, put_settle_grows w c⟩

theorem writeChars_grows (w : Writer) (text : List Char) :
    ∃ added, w.Grows added (w.writeChars text) := by
  induction text generalizing w with
  | nil => exact ⟨[], .refl w⟩
  | cons c more ih =>
    obtain ⟨a, ha⟩ := writeChar_grows w c
    obtain ⟨b, hb⟩ := ih (w.writeChar c)
    exact ⟨a ++ b, ha.trans hb⟩

theorem blankLines_grows (w : Writer) (count : Nat) :
    ∃ added, w.Grows added (w.blankLines count) := by
  induction count generalizing w with
  | zero => exact ⟨[], .refl w⟩
  | succ count ih =>
    obtain ⟨b, hb⟩ := ih w.newline
    exact ⟨_, (newline_grows w).trans hb⟩

theorem ensureLineStart_grows (w : Writer) : ∃ added, w.Grows added w.ensureLineStart := by
  unfold ensureLineStart
  split
  · exact ⟨[], .refl w⟩
  · exact ⟨_, newline_grows w⟩

/-- A separator that breaks ends its line before it pads the next one. -/
theorem writeSeparator_grows (w : Writer) (separator : String) (threshold column : Nat) :
    ∃ added, w.Grows added (w.writeSeparator separator threshold column).1 := by
  unfold writeSeparator
  split
  · exact writeChars_grows w separator.toList
  · obtain ⟨a, ha⟩ := writeChars_grows w (trimEnd separator.toList)
    obtain ⟨b, hb⟩ := padTo_adds (w.writeChars (trimEnd separator.toList)).newline column
    exact ⟨_, (ha.trans (newline_grows _)).adds (by simp) hb (level_padTo _ _)⟩

theorem beginList_grows (w : Writer) : w.Grows [] w.beginList.1 := by
  unfold beginList
  split
  · exact .refl w
  · exact ⟨⟨rfl, (List.append_nil _).symm, rfl⟩, rfl, fun _ => rfl, .inl rfl⟩

theorem endList_grows (w : Writer) (owned : Bool) : w.Grows [] (w.endList owned) := by
  unfold endList
  split
  · exact ⟨⟨rfl, (List.append_nil _).symm, rfl⟩, rfl, fun _ => rfl, .inl rfl⟩
  · exact .refl w

/-- One level deeper more indentation is due, and it begins with what was due before. -/
theorem due_prefix_indent (w : Writer) : w.due <+: w.indent.due := by
  show (if w.atLineStart then _ else _) <+: (if w.atLineStart then _ else _)
  split
  · cases ht : w.indentation.useTabs with
    | true =>
      refine ⟨['\t'], ?_⟩
      simp [indent, Indentation.fill, ht, List.replicate_succ']
    | false =>
      refine ⟨List.replicate w.indentation.width ' ', ?_⟩
      simp [indent, Indentation.fill, ht, Nat.succ_mul]
  · exact List.prefix_refl _

theorem nextPosition_le_indent (w : Writer) : w.nextPosition ≤ w.indent.nextPosition := by
  obtain ⟨more, hm⟩ := due_prefix_indent w
  rw [nextPosition_eq, nextPosition_eq, ← hm]
  show _ ≤ w.position.scan w.indentation.width (w.due ++ more)
  rw [Position.scan_append]
  exact Position.le_scan _ _ _

/-- What is written one level deeper is written. -/
theorem Grows.dedent (h : w.indent.Grows a v) : w.Grows a v.dedent where
  indentation := h.indentation
  level := by
    have := h.level
    simp only [indent] at this
    simp only [Writer.dedent, this]
    omega
  text := h.text
  position := h.position
  idle := h.idle
  lead := h.lead.imp_right (Or.imp_right (due_prefix_indent w).trans)

/-! ### Texts in one line -/

/-- On a line that has begun, characters other than line feeds are added as they are. -/
theorem writeChars_text_of_begun {w : Writer} {text : List Char} (hw : w.atLineStart = false)
    (ht : '\n' ∉ text) : (w.writeChars text).text.toList = w.text.toList ++ text := by
  induction text generalizing w with
  | nil => simp
  | cons c more ih =>
    simp only [List.mem_cons, not_or] at ht
    have hc : w.writeChar c = w.put c := by
      rw [writeChar, if_neg (Ne.symm ht.1), settle, hw]
      rfl
    have hp : (w.put c).atLineStart = false := hw
    rw [writeChars_cons, hc, ih hp ht.2, (put_adds w c).text, List.append_assoc]
    rfl

/-- Elsewhere they stand after the indentation that was due. -/
theorem writeChars_text {w : Writer} {text : List Char} (ht : '\n' ∉ text) (hne : text ≠ []) :
    (w.writeChars text).text.toList = w.text.toList ++ w.due ++ text := by
  cases text with
  | nil => exact absurd rfl hne
  | cons c more =>
    simp only [List.mem_cons, not_or] at ht
    have hc : w.writeChar c = w.settle.put c := if_neg (Ne.symm ht.1)
    have hs : (w.settle.put c).atLineStart = false := w.atLineStart_settle
    rw [writeChars_cons, hc, writeChars_text_of_begun hs ht.2, (put_settle_grows w c).text]
    simp

end Writer

end SourcePrinter
