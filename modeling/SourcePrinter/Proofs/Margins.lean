import Mathlib.Data.List.Induction
import SourcePrinter.Proofs.Guards

/-! Margins and lines: what a writer adds for a text with line feeds in it, and which lines that
has. -/

namespace SourcePrinter

/-! ### Lines -/

/-- A text behind which a line starts, and which started none, ends in a line feed. -/
theorem exists_of_endsLine {text : List Char} (h : endsLine false text = true) :
    ∃ init, text = init ++ ['\n'] := by
  induction text using List.reverseRecOn with
  | nil => cases h
  | append_singleton init c _ =>
    rw [endsLine_append] at h
    exact ⟨init, by rw [beq_iff_eq.1 h]⟩

theorem singleton_prefix {c : Char} {text : List Char} : [c] <+: text ↔ text.head? = some c := by
  cases text with
  | nil => simp
  | cons d rest => simp [List.cons_prefix_cons, eq_comm]

/-- A line after a margin, which an empty line lacks. -/
def afterMargin (margin line : List Char) : List Char := if line = [] then [] else margin ++ line

section

variable {margin pre text first : List Char} {rest : List (List Char)}

theorem exists_splitOn (text : List Char) : ∃ first rest, text.splitOn '\n' = first :: rest :=
  List.exists_cons_of_ne_nil (List.splitOn_ne_nil '\n' text)

theorem splitOn_lineFeed (text : List Char) :
    ('\n' :: text).splitOn '\n' = [] :: text.splitOn '\n' := by
  simp [List.splitOn_cons_eq_if_modifyHead]

/-- What stands before a text and has no line feed belongs to its first line. -/
theorem splitOn_append_of_line (h : '\n' ∉ pre) (ht : text.splitOn '\n' = first :: rest) :
    (pre ++ text).splitOn '\n' = (pre ++ first) :: rest := by
  induction pre with
  | nil => exact ht
  | cons c more ih =>
    simp only [List.mem_cons, not_or] at h
    simp [List.splitOn_cons_eq_if_modifyHead, Ne.symm h.1, ih h.2]

/-- The lines of a text with a margin before every line that is not empty. -/
theorem splitOn_shiftFrom (hm : '\n' ∉ margin) (starts : Bool)
    (ht : text.splitOn '\n' = first :: rest) : (shiftFrom margin starts text).splitOn '\n' =
      (if starts then afterMargin margin first else first) :: rest.map (afterMargin margin) := by
  induction text generalizing starts first rest with
  | nil =>
    obtain ⟨rfl, rfl⟩ := List.cons.inj ht
    cases starts <;> rfl
  | cons c more ih =>
    obtain ⟨next, others, hmore⟩ := exists_splitOn more
    by_cases hc : c = '\n'
    · subst hc
      rw [splitOn_lineFeed, hmore] at ht
      obtain ⟨rfl, rfl⟩ := List.cons.inj ht
      rw [shiftFrom, if_pos rfl, splitOn_lineFeed, ih true hmore]
      cases starts <;> rfl
    · have hlead : '\n' ∉ (if starts then margin else []) ++ [c] := by
        cases starts <;> simp [hm, Ne.symm hc]
      have hline : '\n' ∉ [c] := by simpa using Ne.symm hc
      have hcons : (c :: more).splitOn '\n' = (c :: next) :: others :=
        splitOn_append_of_line hline hmore
      obtain ⟨rfl, rfl⟩ := List.cons.inj (ht.symm.trans hcons)
      rw [shiftFrom, if_neg hc, List.append_cons, splitOn_append_of_line hlead (ih false hmore)]
      cases starts <;> simp [afterMargin]

theorem splitOn_shift (hm : '\n' ∉ margin) (text : List Char) :
    (shift margin text).splitOn '\n' = (text.splitOn '\n').map (afterMargin margin) := by
  obtain ⟨first, rest, ht⟩ := exists_splitOn text
  rw [shift, splitOn_shiftFrom hm true ht, ht]
  rfl

/-- A line without the margin that it begins with. -/
def withoutMargin (margin line : List Char) : List Char :=
  if margin.isPrefixOf line then line.drop margin.length else line

/-- A text without the margin that its lines after the first begin with. -/
def unindent (margin text : List Char) : List Char :=
  ['\n'].intercalate
    ((text.splitOn '\n').take 1 ++ ((text.splitOn '\n').drop 1).map (withoutMargin margin))

example : unindent "  ".toList "a\n  b\n\n c\n  ".toList = "a\nb\n\n c\n".toList := by decide

theorem withoutMargin_append (margin line : List Char) :
    withoutMargin margin (margin ++ line) = line := by
  simp [withoutMargin]

theorem withoutMargin_afterMargin (margin line : List Char) :
    withoutMargin margin (afterMargin margin line) = line := by
  unfold afterMargin
  split
  · next h =>
    subst h
    cases margin <;> rfl
  · exact withoutMargin_append margin line

theorem unindent_eq {more : List (List Char)} (ht : text.splitOn '\n' = first :: rest)
    (hl : pre.splitOn '\n' = first :: more) (hmore : more.map (withoutMargin margin) = rest) :
    unindent margin pre = text := by
  rw [unindent, hl]
  show ['\n'].intercalate (first :: more.map (withoutMargin margin)) = text
  rw [hmore, ← ht, List.intercalate_splitOn]

theorem map_withoutMargin (margin : List Char) (lines : List (List Char)) :
    (lines.map (afterMargin margin)).map (withoutMargin margin) = lines := by
  rw [List.map_map]
  exact (List.map_congr_left fun line _ => withoutMargin_afterMargin margin line).trans
    (List.map_id lines)

/-- What the margin was put before comes back when the margin is taken away. The line that follows
the text may have its margin already. -/
theorem unindent_shiftFrom (hm : '\n' ∉ margin) (text : List Char) :
    unindent margin (shiftFrom margin false text ++ if endsLine false text then margin else []) =
      text := by
  obtain ⟨first, rest, ht⟩ := exists_splitOn text
  cases hends : endsLine false text with
  | false =>
    refine unindent_eq ht ?_ (map_withoutMargin margin rest)
    rw [if_neg Bool.false_ne_true, List.append_nil]
    exact splitOn_shiftFrom hm false ht
  | true =>
    obtain ⟨init, rfl⟩ := exists_of_endsLine hends
    obtain ⟨first, rest, hinit⟩ := exists_splitOn init
    have htext : (init ++ ['\n']).splitOn '\n' = first :: (rest ++ [[]]) := by
      rw [List.splitOn_append_cons_self, hinit]
      rfl
    have hlaid : (shiftFrom margin false init ++ '\n' :: margin).splitOn '\n' =
        first :: (rest.map (afterMargin margin) ++ [margin]) := by
      rw [List.splitOn_append_cons_self, splitOn_shiftFrom hm false hinit,
        List.splitOn_eq_singleton hm]
      rfl
    have hlast : withoutMargin margin margin = [] := by
      simpa using withoutMargin_append margin []
    rw [shiftFrom_append, if_pos rfl, List.append_assoc]
    refine unindent_eq htext hlaid ?_
    rw [List.map_append, map_withoutMargin, List.map_singleton, hlast]

end

/-! ### What a writer adds -/

namespace Writer

variable (w : Writer)

/-- The indentation of the writer's lines. -/
def margin : List Char := w.indentation.margin w.level

theorem lineFeed_not_mem_margin : '\n' ∉ w.margin := fun h => by
  rcases w.indentation.margin_blank w.level _ h with h | h <;> cases h

/-- What is due is spaces or tabs. -/
theorem due_blank : ∀ c ∈ w.due, c = ' ' ∨ c = '\t' := by
  unfold due
  split
  · exact w.indentation.margin_blank w.level
  · exact nofun

theorem writeChar_lays (c : Char) :
    w.Grows (shiftFrom w.margin w.atLineStart [c]) (w.writeChar c) ∧
      (w.writeChar c).atLineStart = (c == '\n') := by
  by_cases hc : c = '\n'
  · rw [writeChar, shiftFrom, if_pos hc, if_pos hc, hc]
    exact ⟨w.newline_grows, rfl⟩
  · rw [writeChar, shiftFrom, if_neg hc, if_neg hc, beq_eq_false_iff_ne.2 hc]
    exact ⟨w.put_settle_grows c, w.atLineStart_settle⟩

/-- What is due stands before the text, and the margin before its other lines. -/
theorem shiftFrom_due {c : Char} (hc : c ≠ '\n') (text : List Char) :
    shiftFrom w.margin w.atLineStart (c :: text) =
      w.due ++ shiftFrom w.margin false (c :: text) := by
  rw [shiftFrom, shiftFrom, if_neg hc, if_neg hc]
  rfl

/-- Characters are added with the indentation before each line that is not empty. -/
theorem writeChars_lays (text : List Char) :
    w.Grows (shiftFrom w.margin w.atLineStart text) (w.writeChars text) ∧
      (w.writeChars text).atLineStart = endsLine w.atLineStart text := by
  induction text generalizing w with
  | nil => exact ⟨.refl w, rfl⟩
  | cons c more ih =>
    obtain ⟨hc, hends⟩ := w.writeChar_lays c
    obtain ⟨hmore, hends'⟩ := ih (w.writeChar c)
    have hmargin : (w.writeChar c).margin = w.margin := by
      rw [margin, hc.indentation, hc.level]
      rfl
    rw [hmargin, hends] at hmore
    rw [hends] at hends'
    rw [← List.singleton_append, shiftFrom_append]
    exact ⟨hc.trans hmore, hends'⟩

end Writer

end SourcePrinter
