import SourcePrinter.Proofs.Dialect

/-! Names segment by segment: a spelled name has a segment for each segment of the name, and each
segment is spelled by itself. What C# and Swift add to a segment takes it out of the reserved words
for good, and can be taken away again. -/

namespace SourcePrinter

/-! ### Joins -/

theorem filter_joinDots {p : Char → Bool} (hp : p '.' = true) (parts : List (List Char)) :
    (joinDots parts).filter p = joinDots (parts.map (List.filter p)) := by
  induction parts with
  | nil => rfl
  | cons part more ih =>
    cases more with
    | nil => rfl
    | cons next more =>
      rw [joinDots, List.filter_append, List.filter_cons_of_pos hp, ih]
      rfl

namespace Naming

/-- The spelling of a segment that collides is one segment. -/
def Dotless (n : Naming) : Prop :=
  ∀ s, n.keywords.contains (String.ofList s) = true → '.' ∉ s → '.' ∉ n.escape s

/-- Names are spelled segment by segment, and a namespace is left out before or after that. -/
structure BySegments (n : Naming) : Prop where
  segments : ∀ name, segments (n.escapeDotted name) = (segments name).map fun s =>
    if n.keywords.contains (String.ofList s) then n.escape s else s
  unchanged : ∀ name, (∀ s ∈ SourcePrinter.segments name,
    n.keywords.contains (String.ofList s) = false) → n.escapeDotted name = name
  omitted : ∀ spelling name, { n with omitNamespaces := true }.resolve spelling .ordinary name =
    String.ofList (lastSegment
      ({ n with omitNamespaces := false }.resolve spelling .ordinary name).toList)
  always : ∀ omitted spelling name,
    { n with omitNamespaces := omitted }.resolve spelling .always name =
      { n with omitNamespaces := false }.resolve spelling .ordinary name
  verbatim : ∀ name, { n with omitNamespaces := false }.resolve .verbatim .ordinary name = name

/-! ### Segments -/

section

variable {n : Naming} (h : n.Dotless)

include h

theorem Dotless.segment {s : List Char} (hs : '.' ∉ s) : '.' ∉ n.segment s := by
  rw [Naming.segment]
  split
  · next hc => exact h s hc hs
  · exact hs

theorem segments_escapeDotted (name : List Char) :
    segments (n.escapeDotted name) = (segments name).map n.segment := by
  refine segments_joinDots _ (mt List.map_eq_nil_iff.1 (segments_ne_nil name)) ?_
  rintro _ hmem
  obtain ⟨s, hs, rfl⟩ := List.mem_map.1 hmem
  exact Dotless.segment h (no_dot_of_mem_segments hs)

theorem lastSegment_escapeDotted (name : List Char) :
    lastSegment (n.escapeDotted name) = n.segment (lastSegment name) := by
  simp only [lastSegment_eq_getLast, segments_escapeDotted h, List.getLast_map]

end

theorem escapeDotted_of_no_dot (n : Naming) {s : List Char} (hs : '.' ∉ s) :
    n.escapeDotted s = n.segment s := by
  rw [escapeDotted, segments_of_no_dot s hs]
  rfl

theorem Dotless.bySegments {n : Naming} (h : n.Dotless) : n.BySegments where
  segments := segments_escapeDotted h
  unchanged := n.escapeDotted_of_no_collision
  omitted spelling name := by
    cases spelling with
    | verbatim => simp [resolve]
    | escaped =>
      have hlast : '.' ∉ lastSegment name.toList := no_dot_of_mem_segments (lastSegment_mem _)
      have hsame : { n with omitNamespaces := true }.escapeDotted (lastSegment name.toList) =
          lastSegment ({ n with omitNamespaces := false }.escapeDotted name.toList) := by
        rw [escapeDotted_of_no_dot _ hlast]
        exact (lastSegment_escapeDotted h name.toList).symm
      simp [resolve, hsame]
  always omitted spelling name := by
    cases spelling with
    | verbatim => simp [resolve]
    | escaped =>
      have hsame : { n with omitNamespaces := omitted }.escapeDotted name.toList =
          { n with omitNamespaces := false }.escapeDotted name.toList := rfl
      simp [resolve, hsame]
  verbatim name := by simp [resolve]

/-! ### Marks -/

/-- Segments that collide are spelled with a mark that no reserved word has. -/
structure Marks (n : Naming) (mark : Char) : Prop where
  plain : ∀ s, n.keywords.contains (String.ofList s) = true → mark ∉ s
  mem : ∀ s, mark ∈ n.escape s
  filter : ∀ s, (n.escape s).filter (· ≠ mark) = s.filter (· ≠ mark)
  not_dot : mark ≠ '.'

section

variable {n : Naming} {mark : Char} (h : n.Marks mark)

include h

theorem Marks.dotless : n.Dotless := by
  intro s _ hs hdot
  have hmem : '.' ∈ (n.escape s).filter (· ≠ mark) :=
    List.mem_filter.2 ⟨hdot, decide_eq_true (Ne.symm h.not_dot)⟩
  rw [h.filter] at hmem
  exact hs (List.mem_filter.1 hmem).1

/-- A spelled segment does not collide. -/
theorem Marks.contains_segment (s : List Char) :
    n.keywords.contains (String.ofList (n.segment s)) = false := by
  rw [segment]
  split
  · exact Bool.eq_false_iff.2 fun hc => h.plain _ hc (h.mem s)
  · next hc => exact Bool.eq_false_iff.2 hc

theorem Marks.contains_escapeDotted (name : List Char) :
    ∀ s ∈ segments (n.escapeDotted name), n.keywords.contains (String.ofList s) = false := by
  intro s hs
  rw [segments_escapeDotted h.dotless] at hs
  obtain ⟨s, -, rfl⟩ := List.mem_map.1 hs
  exact h.contains_segment s

theorem Marks.escapeDotted_escapeDotted (name : List Char) :
    n.escapeDotted (n.escapeDotted name) = n.escapeDotted name :=
  n.escapeDotted_of_no_collision _ (h.contains_escapeDotted name)

theorem Marks.resolve_resolve (spelling : Spelling) (qualification : Qualification)
    (name : String) :
    n.resolve spelling qualification (n.resolve spelling qualification name) =
      n.resolve spelling qualification name := by
  have hlast : '.' ∉ lastSegment name.toList := no_dot_of_mem_segments (lastSegment_mem _)
  have hspelled : lastSegment (n.escapeDotted (lastSegment name.toList)) =
      n.escapeDotted (lastSegment name.toList) := by
    rw [escapeDotted_of_no_dot n hlast, lastSegment_of_no_dot (h.dotless.segment hlast)]
  by_cases ho : n.omitNamespaces ∧ qualification = .ordinary
  · cases spelling with
    | verbatim => simp [resolve, ho, lastSegment_of_no_dot hlast]
    | escaped => simp [resolve, ho, hspelled, h.escapeDotted_escapeDotted]
  · cases spelling with
    | verbatim => simp [resolve, ho]
    | escaped => simp [resolve, ho, h.escapeDotted_escapeDotted]

/-- Without its marks the spelling of a name is the name without them. -/
theorem Marks.filter_escapeDotted (name : List Char) :
    (n.escapeDotted name).filter (· ≠ mark) = name.filter (· ≠ mark) := by
  have hdot : (decide ('.' ≠ mark)) = true := decide_eq_true (Ne.symm h.not_dot)
  have hsegment : ∀ s, (n.segment s).filter (· ≠ mark) = s.filter (· ≠ mark) := by
    intro s
    rw [segment]
    split
    · exact h.filter s
    · rfl
  calc (n.escapeDotted name).filter (· ≠ mark)
    _ = joinDots ((segments name).map fun s => (n.segment s).filter (· ≠ mark)) := by
      rw [escapeDotted, filter_joinDots hdot, List.map_map]
      rfl
    _ = joinDots ((segments name).map fun s => s.filter (· ≠ mark)) := by simp only [hsegment]
    _ = name.filter (· ≠ mark) := by rw [← filter_joinDots hdot, joinDots_segments]

end

end Naming

/-! ### C# and Swift -/

theorem KeywordSet.plain_of_sensitive {words : List String} {mark : Char}
    (h : ∀ w ∈ words, mark ∉ w.toList) (s : List Char)
    (hs : (sensitive words).contains (String.ofList s) = true) : mark ∉ s := by
  rw [contains_sensitive, List.contains_iff_mem] at hs
  simpa using h _ hs

namespace Dialect

/-- How a dialect spells names. -/
def naming (d : Dialect) (omitted : Bool) : Naming :=
  ⟨d.language.hooks.keywords, d.language.hooks.escape, omitted⟩

/-- What a dialect adds to a segment that collides. -/
def nameMark : Dialect → Char
  | csharp => '@'
  | swift _ => Swift.nameQuote

theorem naming_marks (d : Dialect) (omitted : Bool) : (d.naming omitted).Marks d.nameMark := by
  cases d with
  | csharp =>
    have hplain : ∀ s, CSharp.keywords.contains (String.ofList s) = true → '@' ∉ s :=
      KeywordSet.plain_of_sensitive (by decide)
    refine ⟨hplain, fun s => List.mem_cons_self, fun s => ?_, show '@' ≠ '.' by decide⟩
    show ('@' :: s).filter (· ≠ '@') = s.filter (· ≠ '@')
    simp
  | swift =>
    have hplain : ∀ s, Swift.keywords.contains (String.ofList s) = true → Swift.nameQuote ∉ s :=
      KeywordSet.plain_of_sensitive (by decide)
    refine ⟨hplain, fun s => List.mem_cons_self, fun s => ?_,
      show Swift.nameQuote ≠ '.' by decide⟩
    show (Swift.nameQuote :: (s ++ [Swift.nameQuote])).filter (· ≠ Swift.nameQuote) =
      s.filter (· ≠ Swift.nameQuote)
    simp

/-- Names of a dialect cannot be mistaken for reserved words, and only marks are added to them. -/
structure SpellsNames (d : Dialect) (n : Naming) : Prop where
  free : ∀ name, ∀ s ∈ segments (n.escapeDotted name), n.keywords.contains (String.ofList s) = false
  settled : ∀ spelling qualification name,
    n.resolve spelling qualification (n.resolve spelling qualification name) =
      n.resolve spelling qualification name
  restored : ∀ name, d.nameMark ∉ name → (n.escapeDotted name).filter (· ≠ d.nameMark) = name

theorem spellsNames (d : Dialect) (omitted : Bool) : d.SpellsNames (d.naming omitted) where
  free := (d.naming_marks omitted).contains_escapeDotted
  settled := (d.naming_marks omitted).resolve_resolve
  restored name hname := by
    rw [(d.naming_marks omitted).filter_escapeDotted, List.filter_eq_self]
    exact fun c hc => decide_eq_true fun he => hname (he ▸ hc)

end Dialect

/-- Where the spelling of a colliding segment has no dot, names are spelled segment by segment,
whatever the reserved words are. C# and Swift spell names so, and there what is spelled is free of
reserved words, stays as it is when it is spelled again, and gives the name back. -/
theorem Naming.names_by_segments :
    (∀ n : Naming, n.Dotless → n.BySegments) ∧
      ∀ (d : Dialect) (omitted : Bool),
        (d.naming omitted).BySegments ∧ d.SpellsNames (d.naming omitted) :=
  ⟨fun _ h => h.bySegments, fun d omitted =>
    ⟨(d.naming_marks omitted).dotless.bySegments, d.spellsNames omitted⟩⟩

/-- Words in any case, escaped by an ampersand, with namespaces left out. -/
def Naming.ampersand : Naming := ⟨.insensitive ["Begin", "END", "type"], fun s => '&' :: s, true⟩

theorem Naming.ampersand_names_by_segments :
    ampersand.Dotless ∧
      segments (ampersand.escapeDotted "Unit..BEGIN.End.".toList) =
        ["Unit".toList, [], "&BEGIN".toList, "&End".toList, []] ∧
      ampersand.escapeDotted "Unit.Ending".toList = "Unit.Ending".toList ∧
      ampersand.resolve .escaped .ordinary "Unit.End" = "&End" ∧
      ampersand.resolve .escaped .always "Unit.End" = "Unit.&End" := by
  have hdotless : ampersand.Dotless := by
    intro s _ hs hmem
    exact hs ((List.mem_cons.1 hmem).resolve_left (by decide))
  have h := names_by_segments.1 ampersand hdotless
  refine ⟨hdotless, (h.segments _).trans ?_, h.unchanged _ ?_, ?_, ?_⟩
  · decide
  · decide
  · exact (h.omitted .escaped "Unit.End").trans (by decide)
  · exact (h.always true .escaped "Unit.End").trans (by decide)

end SourcePrinter
