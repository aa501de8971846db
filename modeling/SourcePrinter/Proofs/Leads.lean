import Mathlib.Data.List.TakeWhile
import SourcePrinter.Proofs.Ink
import SourcePrinter.Proofs.Margins

/-! The first character of what a document writes in the middle of a line. It can be told from the
document, whether lists wrap or not: where a separator of white space breaks its line, white space
stands in its place. -/

namespace SourcePrinter

/-! ### Texts -/

/-- The first character of a text, where all white space is a space. -/
def leadOf (text : List Char) : Option Char :=
  text.head?.map fun c => if isBlank c then ' ' else c

theorem leadOf_append (s t : List Char) : leadOf (s ++ t) = (leadOf s).or (leadOf t) := by
  cases s <;> rfl

/-- White space is no other character. -/
theorem leadOf_eq_some {text : List Char} {c : Char} (hc : isBlank c = false) :
    leadOf text = some c ↔ text.head? = some c := by
  cases text with
  | nil => exact Iff.rfl
  | cons d rest =>
    show some (if isBlank d then ' ' else d) = some c ↔ some d = some c
    rw [Option.some_inj, Option.some_inj]
    split
    · next hd =>
      refine iff_of_false ?_ ?_
      · rintro rfl
        exact absurd hc (by decide)
      · rintro rfl
        exact absurd hd (by simp [hc])
    · rfl

theorem leadOf_shiftFrom (margin text : List Char) :
    leadOf (shiftFrom margin false text) = leadOf text := by
  cases text with
  | nil => rfl
  | cons c rest =>
    unfold shiftFrom
    split <;> rfl

/-- A separator that breaks its line begins as it does elsewhere. -/
theorem leadOf_trimEnd {text more : List Char} (h : text ≠ []) :
    leadOf (trimEnd text ++ '\n' :: more) = leadOf text := by
  have htext := trimEnd_append_takeWhile text
  cases htrim : trimEnd text with
  | cons c rest =>
    rw [htrim] at htext
    rw [← htext]
    rfl
  | nil =>
    rw [htrim] at htext
    cases text with
    | nil => exact absurd rfl h
    | cons c rest =>
      have hmem : c ∈ ((c :: rest).reverse.takeWhile isBlank).reverse := by
        rw [← List.nil_append (List.reverse _), htext]
        exact List.mem_cons_self
      have hblank : isBlank c = true := List.mem_takeWhile_imp (List.mem_reverse.1 hmem)
      show some (if isBlank '\n' then ' ' else '\n') = some (if isBlank c then ' ' else c)
      rw [if_pos hblank]
      rfl

/-! ### Writers -/

namespace Writer

variable {w : Writer} {added : List Char}

/-- In the middle of a line a text begins with its first character. -/
theorem leadOf_writeChars {text : List Char} (hw : w.atLineStart = false)
    (ht : (w.writeChars text).text.toList = w.text.toList ++ added) :
    leadOf added = leadOf text := by
  have hlays := (w.writeChars_lays text).1.text
  rw [hw, ht] at hlays
  rw [List.append_cancel_left hlays, leadOf_shiftFrom]

theorem leadOf_writeSeparator {s : String} {threshold column : Nat} (hw : w.atLineStart = false)
    (hs : s ≠ "")
    (ht : (w.writeSeparator s threshold column).1.text.toList = w.text.toList ++ added) :
    leadOf added = leadOf s.toList := by
  unfold writeSeparator at ht
  split at ht
  · exact leadOf_writeChars hw ht
  · obtain ⟨a, ha⟩ := w.writeChars_grows (trimEnd s.toList)
    obtain ⟨b, hb⟩ := (w.writeChars (trimEnd s.toList)).newline.padTo_adds column
    have hbroken := (ha.toAdds.trans (newline_grows _).toAdds).trans hb
    rw [hbroken.text] at ht
    rw [← List.append_cancel_left ht, List.append_assoc, leadOf_append,
      leadOf_writeChars hw ha.text, ← leadOf_append]
    exact leadOf_trimEnd fun hnil => hs (String.toList_eq_nil_iff.1 hnil)

end Writer

/-! ### Documents -/

namespace Doc

/-- The first character of what a document writes in the middle of a line, in a type or outside
any, with the remarks on gaps. -/
def lead : Doc → Option TypeScope → Option Char
  | empty, _ | typeGap, _ | malformed _, _ => none
  | newline, _ | lineStart, _ => some ' '
  | text s, _ | separator s, _ => leadOf s.toList
  | append first second, scope => (first.lead scope).or (second.lead scope)
  | nested body, scope | aligned body, scope | node _ body, scope | synthetic _ body, scope
  | unsupported _ body, scope => body.lead scope
  | inside inner body, _ => body.lead (some inner)
  | perScope body, scope => (body scope).lead scope

variable {options : Options} {d : Doc} {column : Nat} {p q : Pass} {f : Forest Visited}

/-- What a run adds in the middle of a line begins with the first character of its document. -/
theorem Runs.leadOf_added {added : List Char} (h : Runs options d column p f q)
    (hd : d.Neat False) (hp : p.writer.atLineStart = false)
    (ht : q.writer.text.toList = p.writer.text.toList ++ added) :
    leadOf added = d.lead p.scope := by
  have hnewline (w : Writer) (added : List Char)
      (ht : w.newline.text.toList = w.text.toList ++ added) : leadOf added = some ' ' := by
    rw [w.newline_grows.text] at ht
    rw [← List.append_cancel_left ht]
    rfl
  induction h generalizing added with
  | empty =>
    rw [List.self_eq_append_right.1 ht]
    rfl
  | @append first second column p q r f g h h' ih ih' =>
    obtain ⟨a, ha⟩ := h.grows
    obtain ⟨b, hb⟩ := h'.grows
    have hadded : added = a ++ b := by
      rw [hb.text, ha.text, List.append_assoc] at ht
      exact (List.append_cancel_left ht).symm
    have hfirst := ih hd.1 hp ha.text
    rw [hadded, leadOf_append, hfirst, lead]
    by_cases hnil : a = []
    · -- Nothing was added yet, so the line is as far as it was.
      have hq : q.writer.atLineStart = false := (ha.idle hnil).trans hp
      rw [ih' hd.2 hq hb.text, h.surroundings.1]
    · obtain ⟨c, rest, rfl⟩ := List.exists_cons_of_ne_nil hnil
      rw [← hfirst]
      rfl
  | text => exact Writer.leadOf_writeChars hp ht
  | newline => exact hnewline _ _ ht
  | @lineStart column p =>
    have hline : p.writer.ensureLineStart = p.writer.newline := by
      rw [Writer.ensureLineStart, hp]
      rfl
    rw [Pass.mapWriter, hline] at ht
    exact hnewline _ _ ht
  | @separator s column p =>
    have hwritten := p.writer.leadOf_writeSeparator hp hd.1 ht
    exact hwritten
  | @aligned body column p q f _ ih =>
    have hbegin := p.writer.beginList_grows
    have hstart := hbegin.idle rfl
    have hend := q.writer.endList_grows p.writer.beginList.2.2
    have htext : q.writer.text.toList = p.writer.beginList.1.text.toList ++ added := by
      rw [hbegin.text, List.append_nil, ← ht]
      exact (hend.text.trans (List.append_nil _)).symm
    exact ih hd (hstart.trans hp) htext
  | nested _ ih | node _ _ _ ih | unseen _ _ ih | inside _ ih | unsupported _ _ ih =>
    exact ih hd hp ht
  | perScope _ ih => exact ih (hd _) hp ht
  | synthetic _ ih =>
    rw [Pass.writer_markSynthetic, Pass.scope_markSynthetic] at ih
    rw [Pass.writer_unmarkSynthetic] at ht
    exact ih hd hp ht
  | typeGap => exact hd.elim

end Doc

end SourcePrinter
