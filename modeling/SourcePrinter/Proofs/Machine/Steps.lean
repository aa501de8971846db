import SourcePrinter.Proofs.Bookkeeping
import SourcePrinter.Proofs.Ink
import SourcePrinter.Proofs.Machine.Exact

/-! What a machine adds to a text, in range or not: the characters that the writer as such would
add, but for the white space between them. The position stays that of the end of the text, as the
machine counts it. -/

namespace SourcePrinter

open Machine (words longest)

namespace Machine

variable {m : Machine} {n k : Nat}

/-- A count as it is in a machine that has not aborted. -/
def cut (m : Machine) (n : Nat) : Nat :=
  match m with
  | checked => n
  | wrapping => n % words

theorem cut_le (m : Machine) (n : Nat) : m.cut n ≤ n := by
  cases m with
  | checked => exact Nat.le_refl n
  | wrapping => exact Nat.mod_le n words

theorem cut_of_lt (h : n < words) : m.cut n = n := by
  cases m with
  | checked => rfl
  | wrapping => exact Nat.mod_eq_of_lt h

theorem cut_cut_add (m : Machine) (n k : Nat) : m.cut (m.cut n + k) = m.cut (n + k) := by
  cases m with
  | checked => rfl
  | wrapping => exact Nat.mod_add_mod n words k

theorem cut_add_cut (m : Machine) (n k : Nat) : m.cut (n + m.cut k) = m.cut (n + k) := by
  cases m with
  | checked => rfl
  | wrapping => exact Nat.add_mod_mod n k words

theorem cut_lt_of_add (h : m.cut (n + k) < words) : m.cut k < words := by
  cases m with
  | checked => exact Nat.lt_of_le_of_lt (Nat.le_add_left k n) h
  | wrapping => exact Nat.mod_lt k (by decide)

theorem eq_cut_of_fit (h : m.fit n = some k) : k = m.cut n ∧ k < words := by
  unfold fit at h
  split at h
  · next hn =>
    cases h
    exact ⟨(cut_of_lt hn).symm, hn⟩
  · cases m with
    | checked => cases h
    | wrapping =>
      cases h
      exact ⟨rfl, Nat.mod_lt _ (by decide)⟩

theorem fit_eq_cut (h : m.cut n < words) : m.fit n = some (m.cut n) := by
  by_cases hn : n < words
  · rw [cut_of_lt hn]
    exact if_pos hn
  · cases m with
    | checked => exact absurd h hn
    | wrapping => exact if_neg hn

theorem fit_of_lt (h : n < words) : m.fit n = some n := if_pos h

/-- The bytes of a text fit a word, and so does one more. -/
theorem longest_lt_words : longest + 1 < words := by decide

theorem fit_of_le (h : n ≤ longest) : m.fit n = some n := by
  have := longest_lt_words
  exact fit_of_lt (by omega)

end Machine

namespace Position

variable {tabWidth : Nat} {text : List Char}

/-- The position as a machine counts it. Lines, characters and bytes cannot leave their words before
the text is too long, columns can. -/
def on (m : Machine) (p : Position) : Position := { p with virtualColumn := m.cut p.virtualColumn }

theorem length_le_bytes (text : List Char) : text.length ≤ bytes text := by
  induction text with
  | nil => exact Nat.le_refl 0
  | cons c more ih =>
    have := c.utf8Size_pos
    rw [List.length_cons, bytes_cons]
    omega

theorem line_le_bytes (tabWidth : Nat) (text : List Char) :
    (ofText tabWidth text).line ≤ bytes text :=
  Nat.le_trans List.count_le_length (length_le_bytes text)

theorem column_le_bytes (tabWidth : Nat) (text : List Char) :
    (ofText tabWidth text).column ≤ bytes text := by
  refine Nat.le_trans ?_ (length_le_bytes text)
  show (lastLine text).length ≤ _
  calc (lastLine text).length = (text.reverse.takeWhile (· ≠ '\n')).length := by
        rw [lastLine, List.length_reverse]
    _ ≤ text.reverse.length := (List.takeWhile_sublist _).length_le
    _ = text.length := List.length_reverse

theorem ofText_append (s t : List Char) :
    ofText tabWidth (s ++ t) = scan tabWidth (ofText tabWidth s) t := by
  rw [← scan_origin, ← scan_origin, scan_append]

/-- A machine counts one more character as the writer does. -/
theorem eq_of_step? {m : Machine} {c : Char} {p : Position} (hfits : bytes text ≤ longest)
    (h : ((ofText tabWidth text).on m).step? m tabWidth c = some p) :
    p = (ofText tabWidth (text ++ [c])).on m ∧ p.virtualColumn < words := by
  have hroom := Machine.longest_lt_words
  have hline : (ofText tabWidth text).line + 1 < words := by
    have := line_le_bytes tabWidth text
    omega
  have hcolumn : (ofText tabWidth text).column + 1 < words := by
    have := column_le_bytes tabWidth text
    omega
  rw [ofText_append, scan_cons, scan_nil]
  unfold step? at h
  unfold step
  split at h
  · next hc =>
    obtain ⟨line, hfit, hp⟩ := Option.bind_eq_some_iff.1 h
    have hfit : m.fit ((ofText tabWidth text).line + 1) = some line := hfit
    rw [Machine.fit_of_lt hline] at hfit
    cases hfit
    cases hp
    rw [if_pos hc]
    refine ⟨?_, show 0 < words by decide⟩
    simp only [on, Machine.cut_of_lt (show 0 < words by decide)]
  · next hc =>
    obtain ⟨column, hfit, hrest⟩ := Option.bind_eq_some_iff.1 h
    have hfit : m.fit ((ofText tabWidth text).column + 1) = some column := hfit
    rw [Machine.fit_of_lt hcolumn] at hfit
    cases hfit
    obtain ⟨virtualColumn, hfit, hp⟩ := Option.bind_eq_some_iff.1 hrest
    obtain ⟨hcut, hlt⟩ := Machine.eq_cut_of_fit hfit
    cases hp
    rw [if_neg hc]
    refine ⟨?_, hlt⟩
    rw [hcut]
    simp only [on, Machine.cut_cut_add]

end Position

/-! ### Blank texts -/

theorem lineFeed_not_mem_of_blank {text : List Char} (h : ∀ c ∈ text, c = '\t' ∨ c = ' ') :
    '\n' ∉ text := by
  intro hmem
  rcases h _ hmem with hc | hc <;> cases hc

theorem ink_of_blank {text : List Char} (h : ∀ c ∈ text, c = '\t' ∨ c = ' ') :
    text.filter isInk = [] := by
  rw [List.filter_eq_nil_iff]
  intro c hc
  rcases h c hc with rfl | rfl <;> decide

theorem blank_tabs_spaces (tabs spaces : Nat) :
    ∀ c ∈ List.replicate tabs '\t' ++ List.replicate spaces ' ', c = '\t' ∨ c = ' ' := by
  intro c hc
  rcases List.mem_append.1 hc with hc | hc
  · exact .inl (List.eq_of_mem_replicate hc)
  · exact .inr (List.eq_of_mem_replicate hc)

/-! ### Writers -/

namespace Writer

variable {m : Machine} {w u v : Writer} {c : Char} {a b text : List Char}

/-- The position is that of the end of the text as a machine counts it, and in range. -/
structure CountedOn (m : Machine) (w : Writer) : Prop where
  position : w.position = (Position.ofText w.indentation.width w.text.toList).on m
  inWord : w.position.virtualColumn < words
  fits : Position.bytes w.text.toList ≤ longest

theorem countedOn_new (m : Machine) (i : Indentation) : (Writer.new i).CountedOn m where
  position := by cases m <;> rfl
  inWord := show 0 < words by decide
  fits := Nat.zero_le _

/-- One writer is another with characters that a machine added. -/
structure Extends (m : Machine) (w : Writer) (added : List Char) (v : Writer) : Prop where
  indentation : v.indentation = w.indentation
  text : v.text.toList = w.text.toList ++ added
  counted : w.CountedOn m → v.CountedOn m

namespace Extends

theorem refl (m : Machine) (w : Writer) : w.Extends m [] w := ⟨rfl, (List.append_nil _).symm, id⟩

theorem trans (h : w.Extends m a v) (h' : v.Extends m b u) : w.Extends m (a ++ b) u where
  indentation := h'.indentation.trans h.indentation
  text := by rw [h'.text, h.text, List.append_assoc]
  counted hw := h'.counted (h.counted hw)

/-- Only text and position are counted. -/
theorem congr (h : w.Extends m a v) (hi : u.indentation = v.indentation) (ht : u.text = v.text)
    (hp : u.position = v.position) : w.Extends m a u where
  indentation := hi.trans h.indentation
  text := ht ▸ h.text
  counted hw :=
    { position := by
        rw [hp, hi, ht]
        exact (h.counted hw).position
      inWord := hp ▸ (h.counted hw).inWord
      fits := ht ▸ (h.counted hw).fits }

end Extends

/-- Characters are added at one level of indentation and in one list. -/
structure Prints (m : Machine) (w : Writer) (added : List Char) (v : Writer) : Prop
    extends w.Extends m added v where
  level : v.level = w.level
  alignment : v.alignment = w.alignment

namespace Prints

theorem refl (m : Machine) (w : Writer) : w.Prints m [] w := ⟨.refl m w, rfl, rfl⟩

theorem trans (h : w.Prints m a v) (h' : v.Prints m b u) : w.Prints m (a ++ b) u :=
  ⟨h.toExtends.trans h'.toExtends, h'.level.trans h.level, h'.alignment.trans h.alignment⟩

theorem withStart (h : w.Prints m a v) (start : Bool) :
    w.Prints m a { v with atLineStart := start } :=
  ⟨h.toExtends.congr rfl rfl rfl, h.level, h.alignment⟩

end Prints

theorem put?_eq (h : w.put? m c = some v) :
    ∃ p, w.position.step? m w.indentation.width c = some p ∧ p.offset ≤ longest ∧
      v = { w with text := w.text.push c, position := p } := by
  obtain ⟨p, hp, hv⟩ := Option.bind_eq_some_iff.1 h
  split at hv
  · next hlongest =>
    cases hv
    exact ⟨p, hp, hlongest, rfl⟩
  · cases hv

theorem put?_prints (h : w.put? m c = some v) : w.Prints m [c] v := by
  obtain ⟨p, hp, hlongest, rfl⟩ := put?_eq h
  refine ⟨⟨rfl, String.toList_push _, fun hw => ?_⟩, rfl, rfl⟩
  rw [hw.position] at hp
  obtain ⟨hposition, hlt⟩ := Position.eq_of_step? hw.fits hp
  refine ⟨?_, hlt, ?_⟩
  · rw [String.toList_push]
    exact hposition
  · rw [hposition] at hlongest
    rw [String.toList_push]
    exact hlongest

theorem put?_atLineStart (h : w.put? m c = some v) : v.atLineStart = w.atLineStart := by
  obtain ⟨p, -, -, rfl⟩ := put?_eq h
  rfl

theorem putMany?_prints {n : Nat} (h : w.putMany? m c n = some v) :
    w.Prints m (List.replicate n c) v := by
  induction n generalizing w with
  | zero =>
    cases h
    exact .refl _ _
  | succ n ih =>
    obtain ⟨u, hput, hmore⟩ := Option.bind_eq_some_iff.1 h
    exact (put?_prints hput).trans (ih hmore)

theorem newline?_prints (h : w.newline? m = some v) :
    w.Prints m ['\n'] v ∧ v.atLineStart = true := by
  obtain ⟨u, hput, hv⟩ := Option.bind_eq_some_iff.1 h
  cases hv
  exact ⟨(put?_prints hput).withStart true, rfl⟩

/-- The indentation that is due on a machine. -/
def due? (m : Machine) (w : Writer) : Option (List Char) :=
  if w.atLineStart then (w.indentation.fill? m w.level).map fun (n, c) => List.replicate n c
  else some []

theorem settle?_prints (h : w.settle? m = some v) :
    ∃ due, w.due? m = some due ∧ w.Prints m due v ∧ v.atLineStart = false := by
  unfold settle? at h
  unfold due?
  split at h
  · next hstart =>
    obtain ⟨⟨n, c⟩, hfill, hrest⟩ := Option.bind_eq_some_iff.1 h
    simp only at hrest
    split at hrest
    · obtain ⟨u, hmany, hv⟩ := Option.bind_eq_some_iff.1 hrest
      cases hv
      rw [if_pos hstart, hfill]
      exact ⟨_, rfl, (putMany?_prints hmany).withStart false, rfl⟩
    · cases hrest
  · next hstart =>
    cases h
    rw [if_neg hstart]
    exact ⟨_, rfl, .refl m w, Bool.eq_false_iff.2 hstart⟩

/-- Only tabs and spaces are due. -/
theorem blank_of_due? {due : List Char} (h : w.due? m = some due) :
    ∀ c ∈ due, c = '\t' ∨ c = ' ' := by
  unfold due? at h
  split at h
  · obtain ⟨⟨n, c⟩, hfill, rfl⟩ := Option.map_eq_some_iff.1 h
    unfold Indentation.fill? at hfill
    intro c' hc
    rw [List.eq_of_mem_replicate hc]
    split at hfill
    · cases hfill
      exact .inl rfl
    · obtain ⟨_, _, hfill⟩ := Option.bind_eq_some_iff.1 hfill
      cases hfill
      exact .inr rfl
  · cases h
    nofun

/-- The position after one character of the line repeated. -/
theorem position_of_putMany? {n : Nat} (hc : c ≠ '\n') (hsize : c.utf8Size = 1) (hw : w.CountedOn m)
    (h : w.putMany? m c n = some v) :
    let columns := n * (if c = '\t' then w.indentation.width else 1)
    v.position = ⟨w.position.line, w.position.column + n,
        m.cut (w.position.virtualColumn + columns), w.position.offset + n⟩ ∧
      m.cut (w.position.virtualColumn + columns) < words ∧
      w.position.column + n < words ∧ w.position.offset + n < words := by
  intro columns
  have hextends := (putMany?_prints h).toExtends
  obtain ⟨hposition, hinWord, hfits⟩ := hextends.counted hw
  have hcolumn := Position.column_le_bytes v.indentation.width v.text.toList
  have hoffset : (Position.ofText v.indentation.width v.text.toList).offset =
      Position.bytes v.text.toList := rfl
  rw [hextends.text, hextends.indentation, Position.ofText_append,
    Position.scan_replicate _ _ hc hsize] at hposition hcolumn hoffset
  rw [hextends.text] at hfits
  have hlt := Nat.lt_of_le_of_lt hfits (Nat.lt_of_succ_lt Machine.longest_lt_words)
  have hcounts : v.position = ⟨w.position.line, w.position.column + n,
      m.cut (w.position.virtualColumn + columns), w.position.offset + n⟩ := by
    rw [hposition, hw.position]
    simp only [Position.on, Machine.cut_cut_add, columns]
  rw [hcounts] at hinWord
  refine ⟨hcounts, hinWord, ?_, ?_⟩
  · rw [hw.position]
    exact Nat.lt_of_le_of_lt hcolumn hlt
  · rw [hw.position]
    exact Nat.lt_of_le_of_lt (Nat.le_of_eq hoffset) hlt

/-- Once the indentation is written, the position is the one that was next. -/
theorem nextPosition?_of_settle? (hw : w.CountedOn m) (h : w.settle? m = some v) :
    w.nextPosition? m = some v.position := by
  unfold settle? at h
  unfold nextPosition?
  split at h
  · next hstart =>
    obtain ⟨⟨n, c⟩, hfill, hrest⟩ := Option.bind_eq_some_iff.1 h
    simp only at hrest
    split at hrest
    · obtain ⟨u, hmany, hv⟩ := Option.bind_eq_some_iff.1 hrest
      cases hv
      rw [if_pos hstart]
      unfold Indentation.fill? at hfill
      split at hfill
      · next htabs =>
        cases hfill
        obtain ⟨hposition, hcolumns, hcolumn, hoffset⟩ :=
          position_of_putMany? (by decide) (by decide) hw hmany
        rw [if_pos rfl] at hposition hcolumns
        have hlevels := Machine.cut_lt_of_add hcolumns
        have hsum := Machine.cut_add_cut m w.position.virtualColumn
          (w.level * w.indentation.width)
        rw [← hsum] at hcolumns hposition
        simp only [htabs, Machine.fit_eq_cut hlevels, Machine.fit_eq_cut hcolumns,
          Machine.fit_of_lt hcolumn, Machine.fit_of_lt hoffset, hposition, if_true,
          Option.bind_eq_bind, Option.bind_some, Option.pure_def]
      · next hspaces =>
        obtain ⟨spaces, hfit, hpair⟩ := Option.bind_eq_some_iff.1 hfill
        cases hpair
        obtain ⟨hposition, hcolumns, hcolumn, hoffset⟩ :=
          position_of_putMany? (by decide) (by decide) hw hmany
        rw [if_neg (by decide), Nat.mul_one] at hposition hcolumns
        simp only [hspaces, hfit, Machine.fit_eq_cut hcolumns, Machine.fit_of_lt hcolumn,
          Machine.fit_of_lt hoffset, hposition, Option.bind_eq_bind, Option.bind_some,
          Option.pure_def, Bool.false_eq_true, if_false]
    · cases hrest
  · next hstart =>
    cases h
    exact if_neg hstart

/-! ### What operations lay down -/

/-- What an operation of a machine leaves of a text: its ink, and whether anything is there. -/
structure Lays (m : Machine) (w : Writer) (ink : List Char) (silent : Prop) (v : Writer) :
    Prop where
  adds : ∃ added, w.Extends m added v ∧ added.filter isInk = ink
  starts : w.Starts → v.Starts
  fresh : w.Fresh → v.Fresh ∧ (v.text = "" ↔ w.text = "" ∧ silent)

theorem Extends.text_ne (h : w.Extends m a v) (ha : a ≠ []) : v.text ≠ "" := by
  intro hv
  have htext := h.text
  rw [hv] at htext
  exact ha (List.append_eq_nil_iff.1 htext.symm).2

namespace Lays

variable {i j : List Char} {s t : Prop}

theorem trans (h : w.Lays m i s v) (h' : v.Lays m j t u) : w.Lays m (i ++ j) (s ∧ t) u where
  adds := by
    obtain ⟨a, ha, rfl⟩ := h.adds
    obtain ⟨b, hb, rfl⟩ := h'.adds
    exact ⟨a ++ b, ha.trans hb, List.filter_append ..⟩
  starts hw := h'.starts (h.starts hw)
  fresh hw := by
    obtain ⟨hv, hempty⟩ := h.fresh hw
    obtain ⟨hu, hempty'⟩ := h'.fresh hv
    exact ⟨hu, by rw [hempty', hempty, and_assoc]⟩

theorem congr (h : w.Lays m i s v) (hi : i = j) (hs : s ↔ t) : w.Lays m j t v :=
  hi ▸ propext hs ▸ h

/-- Nothing is added, and where a line starts stays. -/
theorem idle (h : w.Extends m [] v) (hstart : v.atLineStart = w.atLineStart) :
    w.Lays m [] True v where
  adds := ⟨[], h, rfl⟩
  starts hw hv := by
    rw [h.text, List.append_nil]
    exact hw (hstart.symm.trans hv)
  fresh hw := by
    have htext : v.text = w.text := String.toList_inj.1 (h.text.trans (List.append_nil _))
    refine ⟨fun hv => ?_, ?_⟩
    · exact hstart.trans (hw (htext ▸ hv))
    · rw [htext, and_true]

/-- Something is added. -/
theorem of_ne_nil (h : w.Extends m a v) (ha : a ≠ []) (hstarts : v.Starts) :
    w.Lays m (a.filter isInk) False v where
  adds := ⟨a, h, rfl⟩
  starts _ := hstarts
  fresh _ := ⟨fun hv => absurd hv (h.text_ne ha), iff_of_false (h.text_ne ha) fun h => h.2⟩

end Lays

/-- A line starts behind a line feed. -/
theorem newline?_lays (h : w.newline? m = some v) : w.Lays m [] False v := by
  obtain ⟨hprints, hstart⟩ := newline?_prints h
  refine .of_ne_nil hprints.toExtends (List.cons_ne_nil _ _) fun _ => ?_
  rw [hprints.text, endsLine_append]
  rfl

/-- A character other than a line feed stands behind the indentation that was due. -/
theorem writeChar?_prints (hc : c ≠ '\n') (h : w.writeChar? m c = some v) :
    ∃ due, w.due? m = some due ∧ w.Prints m (due ++ [c]) v ∧ v.atLineStart = false := by
  rw [writeChar?, if_neg hc] at h
  obtain ⟨u, hsettle, hput⟩ := Option.bind_eq_some_iff.1 h
  obtain ⟨due, hdue, hextends, hbegun⟩ := settle?_prints hsettle
  exact ⟨due, hdue, hextends.trans (put?_prints hput), (put?_atLineStart hput).trans hbegun⟩

theorem due?_of_begun (h : w.atLineStart = false) : w.due? m = some [] := by
  rw [due?, h]
  rfl

/-- A text in one line stands behind the indentation that was due. -/
theorem writeChars?_prints (ht : '\n' ∉ text) (hne : text ≠ [])
    (h : w.writeChars? m text = some v) :
    ∃ due, w.due? m = some due ∧ w.Prints m (due ++ text) v ∧ v.atLineStart = false := by
  induction text generalizing w with
  | nil => exact absurd rfl hne
  | cons c more ih =>
    simp only [List.mem_cons, not_or] at ht
    obtain ⟨u, hchar, hmore⟩ := Option.bind_eq_some_iff.1 h
    obtain ⟨due, hdue, hextends, hbegun⟩ := writeChar?_prints (Ne.symm ht.1) hchar
    by_cases hnil : more = []
    · subst hnil
      cases hmore
      exact ⟨due, hdue, hextends, hbegun⟩
    -- Behind the first character nothing is due.
    · obtain ⟨due', hdue', hextends', hbegun'⟩ := ih ht.2 hnil hmore
      cases (due?_of_begun hbegun).symm.trans hdue'
      refine ⟨due, hdue, ?_, hbegun'⟩
      rw [List.append_cons]
      exact hextends.trans hextends'

theorem settle?_of_writeChars? (ht : '\n' ∉ text) (hne : text ≠ [])
    (h : w.writeChars? m text = some v) : ∃ u, w.settle? m = some u := by
  cases text with
  | nil => exact absurd rfl hne
  | cons c more =>
    simp only [List.mem_cons, not_or] at ht
    obtain ⟨u, hchar, -⟩ := Option.bind_eq_some_iff.1 h
    rw [writeChar?, if_neg (Ne.symm ht.1)] at hchar
    obtain ⟨settled, hsettle, -⟩ := Option.bind_eq_some_iff.1 hchar
    exact ⟨settled, hsettle⟩

theorem writeChar?_lays (h : w.writeChar? m c = some v) :
    w.Lays m ([c].filter isInk) False v := by
  by_cases hc : c = '\n'
  · rw [writeChar?, if_pos hc] at h
    subst hc
    exact newline?_lays h
  · obtain ⟨due, hdue, hprints, hbegun⟩ := writeChar?_prints hc h
    refine (Lays.of_ne_nil hprints.toExtends ?_ (starts_of_begun hbegun)).congr ?_ Iff.rfl
    · exact List.append_ne_nil_of_right_ne_nil _ (List.cons_ne_nil _ _)
    · rw [List.filter_append, ink_of_blank (blank_of_due? hdue), List.nil_append]

theorem writeChars?_lays (h : w.writeChars? m text = some v) :
    w.Lays m (text.filter isInk) (text = []) v := by
  induction text generalizing w with
  | nil =>
    cases h
    exact (Lays.idle (.refl _ _) rfl).congr rfl (by simp)
  | cons c more ih =>
    obtain ⟨u, hchar, hmore⟩ := Option.bind_eq_some_iff.1 h
    refine ((writeChar?_lays hchar).trans (ih hmore)).congr ?_ ?_
    · rw [← List.filter_append]
      rfl
    · simp

theorem write?_lays {s : String} (h : w.write? m s = some v) : w.Lays m (ink s) (s = "") v :=
  (writeChars?_lays h).congr rfl String.toList_eq_nil_iff

theorem writeLine?_lays {s : String} (h : w.writeLine? m s = some v) :
    w.Lays m (ink s) False v := by
  obtain ⟨u, hwrite, hline⟩ := Option.bind_eq_some_iff.1 h
  exact ((write?_lays hwrite).trans (newline?_lays hline)).congr (List.append_nil _) (by simp)

theorem blankLines?_lays {count : Nat} (h : w.blankLines? m count = some v) :
    w.Lays m [] (count = 0) v := by
  induction count generalizing w with
  | zero =>
    cases h
    exact (Lays.idle (.refl _ _) rfl).congr rfl (by simp)
  | succ count ih =>
    obtain ⟨u, hline, hmore⟩ := Option.bind_eq_some_iff.1 h
    exact ((newline?_lays hline).trans (ih hmore)).congr rfl (by simp)

theorem ensureLineStart?_lays (h : w.ensureLineStart? m = some v) : w.Lays m [] True v := by
  unfold ensureLineStart? at h
  split at h
  · cases h
    exact .idle (.refl _ _) rfl
  -- Where no line starts something stands on the line, so the text is not empty before either.
  · next hstart =>
    have hlays := newline?_lays h
    refine ⟨hlays.adds, hlays.starts, fun hw => ⟨(hlays.fresh hw).1, ?_⟩⟩
    have hne : w.text ≠ "" := fun htext => hstart (hw htext)
    rw [(hlays.fresh hw).2]
    simp [hne]

theorem indent?_lays (h : w.indent? m = some v) : w.Lays m [] True v := by
  obtain ⟨level, -, hv⟩ := Option.bind_eq_some_iff.1 h
  cases hv
  exact .idle ((Extends.refl m w).congr rfl rfl rfl) rfl

theorem dedent_lays (m : Machine) (w : Writer) : w.Lays m [] True w.dedent :=
  .idle ((Extends.refl m w).congr rfl rfl rfl) rfl

theorem beginList?_lays {column : Nat} {owned : Bool}
    (h : w.beginList? m = some (v, column, owned)) : w.Lays m [] True v := by
  unfold beginList? at h
  split at h
  · cases h
    exact .idle (.refl _ _) rfl
  · obtain ⟨next, -, hv⟩ := Option.bind_eq_some_iff.1 h
    cases hv
    exact .idle ((Extends.refl m w).congr rfl rfl rfl) rfl

theorem endList_lays (m : Machine) (w : Writer) (owned : Bool) :
    w.Lays m [] True (w.endList owned) := by
  unfold endList
  split
  · exact .idle ((Extends.refl m w).congr rfl rfl rfl) rfl
  · exact .idle (.refl m w) rfl

/-! Padding. What holds in a loop is shown round by round: at the end the test fails. -/

/-- What every round of a loop keeps holds at its end, and there the test fails. -/
theorem putWhile?_induct {motive : Writer → Prop} {test : Writer → Option Bool}
    (h : w.putWhile? m c test = some v) (hw : motive w)
    (hround : ∀ u u', motive u → test u = some true → u.put? m c = some u' → motive u') :
    motive v ∧ test v = some false := by
  induction w using putWhile?.induct m c test with
  | case1 w htest =>
    rw [putWhile?_of_none htest] at h
    cases h
  | case2 w htest =>
    rw [putWhile?_of_false htest] at h
    cases h
    exact ⟨hw, htest⟩
  | case3 w htest hput =>
    rw [putWhile?_of_true htest, hput] at h
    cases h
  | case4 w htest u hput ih =>
    rw [putWhile?_of_true htest, hput] at h
    exact ih h (hround w u hw htest hput)

/-- A loop adds its character. -/
theorem putWhile?_prints {test : Writer → Option Bool} (h : w.putWhile? m c test = some v) :
    ∃ n, w.Prints m (List.replicate n c) v := by
  refine (putWhile?_induct (motive := fun u => ∃ n, w.Prints m (List.replicate n c) u) h
    ⟨0, .refl m w⟩ ?_).1
  rintro u u' ⟨n, hn⟩ - hput
  refine ⟨n + 1, ?_⟩
  rw [List.replicate_succ']
  exact hn.trans (put?_prints hput)

theorem padTo?_eq {column : Nat} (h : w.padTo? m column = some v) :
    ∃ tabbed spaced, w.padTabs? m column = some tabbed ∧
      tabbed.putWhile? m ' ' (fun u => some (decide (u.position.virtualColumn < column))) =
        some spaced ∧
      v = { spaced with atLineStart := false } := by
  obtain ⟨tabbed, htabs, hrest⟩ := Option.bind_eq_some_iff.1 h
  obtain ⟨spaced, hspaces, hv⟩ := Option.bind_eq_some_iff.1 hrest
  cases hv
  exact ⟨tabbed, spaced, htabs, hspaces, rfl⟩

/-- Padding adds tabs and spaces. -/
theorem padTo?_prints {column : Nat} (h : w.padTo? m column = some v) :
    ∃ added, w.Prints m added v ∧ (∀ c ∈ added, c = '\t' ∨ c = ' ') ∧ v.atLineStart = false := by
  obtain ⟨tabbed, spaced, htabs, hspaces, rfl⟩ := padTo?_eq h
  obtain ⟨tabs, hfirst⟩ : ∃ n, w.Prints m (List.replicate n '\t') tabbed := by
    unfold padTabs? at htabs
    split at htabs
    · exact putWhile?_prints htabs
    · cases htabs
      exact ⟨0, .refl _ _⟩
  obtain ⟨spaces, hsecond⟩ := putWhile?_prints hspaces
  exact ⟨_, (hfirst.trans hsecond).withStart false, blank_tabs_spaces tabs spaces, rfl⟩

/-- A separator is written as it is, or what is left of it is, a line feed and padding. -/
theorem writeSeparator?_eq {s : String} {threshold column : Nat} {broken : Bool}
    (h : w.writeSeparator? m s threshold column = some (v, broken)) :
    ∃ stop, m.fit (w.position.virtualColumn + s.length) = some stop ∧
      (stop ≤ threshold ∧ w.write? m s = some v ∧ broken = false ∨
        threshold < stop ∧ broken = true ∧ ∃ u u', w.writeChars? m (trimEnd s.toList) = some u ∧
          u.newline? m = some u' ∧ u'.padTo? m column = some v) := by
  obtain ⟨stop, hfit, hrest⟩ := Option.bind_eq_some_iff.1 h
  refine ⟨stop, hfit, ?_⟩
  split at hrest
  · next hstop =>
    obtain ⟨u, hwrite, hv⟩ := Option.bind_eq_some_iff.1 hrest
    cases hv
    exact .inl ⟨hstop, hwrite, rfl⟩
  · next hstop =>
    obtain ⟨u, htrim, hrest⟩ := Option.bind_eq_some_iff.1 hrest
    obtain ⟨u', hline, hrest⟩ := Option.bind_eq_some_iff.1 hrest
    obtain ⟨u'', hpad, hv⟩ := Option.bind_eq_some_iff.1 hrest
    cases hv
    exact .inr ⟨Nat.lt_of_not_le hstop, rfl, u, u', htrim, hline, hpad⟩

/-- A broken separator ends its line and pads the next. -/
theorem break?_extends {column : Nat} {u u' : Writer} (htrim : w.writeChars? m text = some u)
    (hline : u.newline? m = some u') (hpad : u'.padTo? m column = some v) :
    ∃ added, w.Extends m added v ∧ added ≠ [] ∧ added.filter isInk = text.filter isInk ∧
      v.atLineStart = false := by
  obtain ⟨a, ha, hink⟩ := (writeChars?_lays htrim).adds
  obtain ⟨b, hb, hblank, hbegun⟩ := padTo?_prints hpad
  refine ⟨a ++ ['\n'] ++ b, (ha.trans (newline?_prints hline).1.toExtends).trans hb.toExtends,
    ?_, ?_, hbegun⟩
  · simp
  · rw [List.filter_append, List.filter_append, hink, ink_of_blank hblank, List.append_nil]
    exact List.append_nil _

/-- A separator leaves its ink whether it breaks the line or not. -/
theorem writeSeparator?_lays {s : String} (hs : Separates s) {threshold column : Nat}
    {broken : Bool} (h : w.writeSeparator? m s threshold column = some (v, broken)) :
    w.Lays m (ink s) False v := by
  obtain ⟨stop, -, ⟨-, hwrite, -⟩ | ⟨-, -, u, u', htrim, hline, hpad⟩⟩ := writeSeparator?_eq h
  · exact (write?_lays hwrite).congr rfl (iff_of_false hs.1 not_false)
  · obtain ⟨added, hextends, hne, hink, hbegun⟩ := break?_extends htrim hline hpad
    refine (Lays.of_ne_nil hextends hne (starts_of_begun hbegun)).congr ?_ Iff.rfl
    exact hink.trans hs.2

end Writer
end SourcePrinter
