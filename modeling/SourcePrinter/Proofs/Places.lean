import Mathlib.Data.List.Induction
import SourcePrinter.Language.CSharp
import SourcePrinter.Proofs.Spans

/-! The spans of a rendering as places of its text. The place where a node stops is always one; the
place where it starts is not if the indentation that was counted on is never written. -/

namespace SourcePrinter

/-! ### Places -/

/-- The characters of a text after its last line feed. -/
def lastLine (text : List Char) : List Char := (text.reverse.takeWhile (· ≠ '\n')).reverse

/-- The columns of a line, its tabs widened. -/
def columns (tabWidth : Nat) (line : List Char) : Nat :=
  line.foldr (fun c total => (if c = '\t' then tabWidth else 1) + total) 0

theorem columns_append_singleton (tabWidth : Nat) (line : List Char) (c : Char) :
    columns tabWidth (line ++ [c]) =
      columns tabWidth line + if c = '\t' then tabWidth else 1 := by
  induction line with
  | nil => simp [columns]
  | cons d more ih =>
    simp only [columns, List.cons_append, List.foldr_cons] at ih ⊢
    rw [ih, Nat.add_assoc]

/-- The position at the end of a text: its line feeds, the characters and the columns of its last
line, and its bytes. -/
def Position.ofText (tabWidth : Nat) (text : List Char) : Position where
  line := text.count '\n'
  column := (lastLine text).length
  virtualColumn := columns tabWidth (lastLine text)
  offset := bytes text

/-- A position is the place after some prefix of a text. -/
def Position.IsPlace (tabWidth : Nat) (text : String) (p : Position) : Prop :=
  ∃ before, before <+: text.toList ∧ p = ofText tabWidth before

namespace Position

variable {tabWidth : Nat}

/-- Counting character by character gives the position at the end. -/
theorem scan_origin (text : List Char) : scan tabWidth origin text = ofText tabWidth text := by
  induction text using List.reverseRecOn with
  | nil => rfl
  | append_singleton text c ih =>
    rw [scan_append, ih, scan_cons, scan_nil]
    by_cases hc : c = '\n'
    · subst hc
      simp [step, ofText, lastLine, columns, show '\n'.utf8Size = 1 by decide]
    · simp [step, ofText, lastLine, columns_append_singleton, hc]

/-- The bytes of a text are the bytes of its characters. -/
theorem bytes_toList (s : String) : bytes s.toList = s.utf8ByteSize := by
  obtain ⟨text, rfl⟩ : ∃ text, s = String.ofList text := ⟨s.toList, by simp⟩
  rw [String.toList_ofList]
  induction text with
  | nil => rfl
  | cons c more ih =>
    rw [bytes_cons, ih, String.ofList_cons]
    simp

/-- No place lies past the end of the text. -/
theorem IsPlace.offset_le {text : String} {p : Position} (h : p.IsPlace tabWidth text) :
    p.offset ≤ text.utf8ByteSize := by
  obtain ⟨before, ⟨after, ht⟩, rfl⟩ := h
  rw [← bytes_toList, ← ht, bytes_append]
  exact Nat.le_add_right _ _

/-- A position that a text takes past its own start cannot be reached through a line feed there. -/
theorem not_isPlace_of_lineFeed {text : String} {before due rest : List Char}
    (ht : text.toList = before ++ '\n' :: rest) (hd : due ≠ []) (hl : '\n' ∉ due) :
    ¬ (ofText tabWidth (before ++ due)).IsPlace tabWidth text := by
  rintro ⟨pre, hpre, heq⟩
  have hbytes := bytes_pos hd
  have hoff : bytes before + bytes due = bytes pre := by
    have := congrArg Position.offset heq
    simpa [ofText] using this
  have hline : before.count '\n' = pre.count '\n' := by
    have := congrArg Position.line heq
    simpa [ofText, List.count_eq_zero_of_not_mem hl] using this
  rw [ht] at hpre
  rcases List.prefix_or_prefix_of_prefix hpre (List.prefix_append before _) with hp | hp
  · obtain ⟨more, rfl⟩ := hp
    rw [bytes_append] at hoff
    omega
  · obtain ⟨more, rfl⟩ := hp
    rw [List.prefix_append_right_inj] at hpre
    cases more with
    | nil =>
      rw [List.append_nil] at hoff
      omega
    | cons c more =>
      obtain ⟨rfl, -⟩ := List.cons_prefix_cons.1 hpre
      rw [List.count_append, List.count_cons_self] at hline
      omega

end Position

/-! ### Visits in a text -/

/-- The node is entered where indentation is due, its own text begins with a line feed, and no node
inside it starts before the indentation. The indentation is never written. -/
def Visited.Overhangs (v : Visited) : Prop :=
  v.visit.before ≠ v.visit.pending ∧
    (∃ rest, v.left.writer.text.toList = v.before.text.toList ++ '\n' :: rest) ∧
    ∀ x ∈ v.left.floor, v.visit.pending ≤ x

/-- A visit in a text under construction: what was there before, what the node writes, and what
comes after. -/
structure Visited.Occurs (v : Visited) (w : Writer) (before own after : List Char) (w' : Writer) :
    Prop where
  before : w.Adds before v.before
  made : v.Made own
  after : v.left.writer.Adds after w'

namespace Doc

variable {options : Options} {d : Doc} {column : Nat} {p q : Pass} {f : Forest Visited}

/-- Every visit of a run is one in the text that the run writes. -/
theorem Runs.occurs (h : Runs options d column p f q) {v : Visited} (hv : v ∈ f.labels) :
    ∃ a b c, v.Occurs p.writer a b c q.writer := by
  induction h with
  | empty | text | newline | lineStart | typeGap | separator | unseen =>
    exact absurd hv List.not_mem_nil
  | append h h' ih ih' =>
    rw [Forest.labels_append, List.mem_append] at hv
    -- What the other part adds comes after the text of the visit, or before it.
    rcases hv with hv | hv
    · obtain ⟨a, b, c, ho⟩ := ih hv
      obtain ⟨e, he⟩ := h'.grows
      exact ⟨a, b, c ++ e, ho.before, ho.made, ho.after.trans he.toAdds⟩
    · obtain ⟨a, b, c, ho⟩ := ih' hv
      obtain ⟨e, he⟩ := h.grows
      exact ⟨e ++ a, b, c, he.toAdds.trans ho.before, ho.made, ho.after⟩
  | @nested body column p q f _ ih =>
    obtain ⟨a, b, c, ho⟩ := ih hv
    exact ⟨a, b, c, ⟨ho.before.indentation, ho.before.text, ho.before.position⟩, ho.made,
      ⟨ho.after.indentation, ho.after.text, ho.after.position⟩⟩
  | @aligned body column p q f _ ih =>
    obtain ⟨a, b, c, ho⟩ := ih hv
    exact ⟨_, b, _, p.writer.beginList_grows.toAdds.trans ho.before, ho.made,
      ho.after.trans (q.writer.endList_grows _).toAdds⟩
  | @node key body column p q f hr hk h ih =>
    simp only [Forest.labels, List.append_nil, List.mem_cons] at hv
    rcases hv with rfl | hv
    · obtain ⟨b, hb⟩ := h.grows
      exact ⟨[], b, [], .refl _, made_of_enter (p := p) hb h.floors, .refl _⟩
    · exact ih hv
  | synthetic _ ih => simpa using ih hv
  | inside _ ih | perScope _ ih | unsupported _ _ ih => exact ih hv

end Doc

namespace Visited.Occurs

variable {v : Visited} {i : Indentation} {w : Writer} {a b c : List Char}

theorem text_eq (h : v.Occurs (.new i) a b c w) : w.text.toList = a ++ (b ++ c) := by
  rw [h.after.text, h.made.grows.text, h.before.text]
  simp [Writer.new]

theorem width_eq (h : v.Occurs (.new i) a b c w) : v.before.indentation.width = i.width := by
  rw [h.before.indentation]
  rfl

theorem before_eq (h : v.Occurs (.new i) a b c w) : v.visit.before = .ofText i.width a := by
  rw [h.made.before, h.before.position]
  exact Position.scan_origin a

theorem pending_eq (h : v.Occurs (.new i) a b c w) :
    v.visit.pending = .ofText i.width (a ++ v.before.due) := by
  rw [h.made.pending, Writer.nextPosition_eq, h.width_eq, ← h.made.before, h.before_eq,
    ← Position.scan_origin, ← Position.scan_origin, Position.scan_append]

theorem stop_eq (h : v.Occurs (.new i) a b c w) : v.span.stop = .ofText i.width (a ++ b) := by
  rw [h.made.stop_eq, h.made.grows.position, h.width_eq, ← h.made.before, h.before_eq,
    ← Position.scan_origin, ← Position.scan_origin, Position.scan_append]

/-- A node stops at a place of the text. -/
theorem stop_isPlace (h : v.Occurs (.new i) a b c w) : v.span.stop.IsPlace i.width w.text :=
  ⟨a ++ b, ⟨c, by rw [h.text_eq, List.append_assoc]⟩, h.stop_eq⟩

/-- A node that overhangs starts at the indentation that is not there. -/
theorem start_of_overhangs (h : v.Occurs (.new i) a b c w) (ho : v.Overhangs) :
    ¬ v.span.start.IsPlace i.width w.text := by
  obtain ⟨hne, ⟨rest, hrest⟩, hfloor⟩ := ho
  have hb : b = '\n' :: rest := by
    rw [h.made.grows.text] at hrest
    exact List.append_cancel_left hrest
  have hstart : v.span.start = v.visit.pending := by
    rw [h.made.start_of_ne_nil (by rw [hb]; exact List.cons_ne_nil _ _)]
    cases hf : v.left.floor with
    | none => rfl
    | some x => exact Position.min_eq_right (hfloor x hf)
  have hdue : v.before.due ≠ [] := by
    intro hd
    rw [h.before_eq, h.pending_eq, hd, List.append_nil] at hne
    exact hne rfl
  have htext : w.text.toList = a ++ '\n' :: (rest ++ c) := by
    rw [h.text_eq, hb]
    rfl
  rw [hstart, h.pending_eq]
  exact Position.not_isPlace_of_lineFeed htext hdue v.before.lineFeed_not_mem_due

/-- A node that does not overhang starts at a place of the text, before it stops. -/
theorem start_of_not_overhangs (h : v.Occurs (.new i) a b c w) (ho : ¬ v.Overhangs) :
    v.span.start.IsPlace i.width w.text ∧ v.span.start.offset ≤ v.span.stop.offset := by
  have hstop : v.span.stop.offset = Position.bytes a + Position.bytes b := by
    rw [h.stop_eq, ← Position.bytes_append]
    rfl
  rcases h.made.start_cases with hs | ⟨hs, hb, hfloor⟩
  · rw [hs, h.before_eq]
    refine ⟨⟨a, ⟨b ++ c, h.text_eq.symm⟩, rfl⟩, ?_⟩
    rw [hstop]
    exact Nat.le_add_right _ _
  · by_cases hd : v.before.due = []
    · rw [hs, h.pending_eq, hd, List.append_nil]
      refine ⟨⟨a, ⟨b ++ c, h.text_eq.symm⟩, rfl⟩, ?_⟩
      rw [hstop]
      exact Nat.le_add_right _ _
    -- What is due leads the text of the node, unless the node ends within it and overhangs.
    · rcases h.made.grows.lead with hn | ⟨rest, hrest⟩ | ⟨more, hmore⟩
      · exact absurd hn hb
      · refine absurd ⟨?_, ⟨rest, ?_⟩, hfloor⟩ ho
        · rw [h.made.before, h.made.pending, Writer.nextPosition_eq]
          exact fun he => hd ((Position.scan_eq_self _ _).1 he.symm)
        · rw [h.made.grows.text, hrest]
      · rw [hs, h.pending_eq]
        refine ⟨⟨a ++ v.before.due, ⟨more ++ c, ?_⟩, rfl⟩, ?_⟩
        · rw [h.text_eq, ← hmore]
          simp
        · rw [hstop, ← hmore, Position.bytes_append]
          show Position.bytes (a ++ v.before.due) ≤ _
          rw [Position.bytes_append]
          omega

end Visited.Occurs

/-- The visits of a rendering: those of a run that gives its text and its spans. -/
def Request.Visits (l : Language) (options : Options) (r : Request) (out : Rendering)
    (visits : Forest Visited) : Prop :=
  ∃ last, (r.document l options).Runs options 0 (.initial options) visits last ∧
    out = ⟨last.writer.text, last.spans⟩

/-- A rendering has visits, and every span of it is that of one of them. Where the node stops is a
place of the text; where it starts is one too, and no later, exactly if the visit does not
overhang. -/
theorem Request.spans_are_places {l : Language} {options : Options} {r : Request}
    {out : Rendering} (h : r.render l options = .ok out) :
    (∃ visits, r.Visits l options out visits) ∧
      ∀ visits, r.Visits l options out visits → ∀ k s, out.spans.get? k = some s →
        ∃ v ∈ visits.labels, v.key = k ∧ v.span = s ∧
          s.stop.IsPlace options.tabSize out.text ∧ s.stop.offset ≤ out.text.utf8ByteSize ∧
          (s.start.IsPlace options.tabSize out.text ∧ s.start.offset ≤ s.stop.offset ↔
            ¬ v.Overhangs) := by
  refine ⟨?_, ?_⟩
  · obtain ⟨visits, last, hr, hout⟩ := Doc.runs_of_render h
    exact ⟨visits, last, hr, hout⟩
  · rintro visits ⟨last, hr, rfl⟩ k s hs
    have hs : last.spans.get? k = some s := hs
    rw [hr.spans_eq] at hs
    obtain ⟨v, hv, rfl, rfl⟩ := (Forest.get?_record hs).resolve_right (by simp [Pass.initial])
    obtain ⟨a, b, c, ho⟩ := hr.occurs hv
    refine ⟨v, hv, rfl, rfl, ho.stop_isPlace, ho.stop_isPlace.offset_le, ?_⟩
    exact ⟨fun hp hov => ho.start_of_overhangs hov hp.1, ho.start_of_not_overhangs⟩

/-- A block whose only statement is a line feed. The indentation that is due where the statement
begins is never written. -/
def Request.lineFeed : Request := .statement ⟨1, .block [⟨2, .raw "\n"⟩]⟩ none

/-- The line feed is said to start past the end of the text. -/
theorem Request.lineFeed_start : ∃ out s,
    lineFeed.render .csharp .initial = .ok out ∧ out.spans.get? ⟨.statement, 2⟩ = some s ∧
      ¬ s.start.IsPlace Options.initial.tabSize out.text ∧ s.stop.offset < s.start.offset ∧
      out.text.utf8ByteSize < s.start.offset := by
  refine ⟨_, _, rfl, rfl, fun h => absurd h.offset_le ?_, ?_, ?_⟩
  all_goals decide

theorem Request.lineFeed_overhangs : ∃ out visits,
    lineFeed.render .csharp .initial = .ok out ∧ lineFeed.Visits .csharp .initial out visits ∧
      ∃ v ∈ visits.labels, v.key = ⟨.statement, 2⟩ ∧ v.Overhangs := by
  obtain ⟨out, s, hout, hs, hpast⟩ : ∃ out s, lineFeed.render .csharp .initial = .ok out ∧
      out.spans.get? ⟨.statement, 2⟩ = some s ∧ out.text.utf8ByteSize < s.start.offset :=
    ⟨_, _, rfl, rfl, by decide⟩
  obtain ⟨⟨visits, hv⟩, hall⟩ := spans_are_places hout
  obtain ⟨v, hmem, hkey, -, -, -, hplace⟩ := hall visits hv _ s hs
  refine ⟨out, visits, hout, hv, v, hmem, hkey, Classical.byContradiction fun hn => ?_⟩
  have hle := (hplace.2 hn).1.offset_le
  omega

end SourcePrinter
