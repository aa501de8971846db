import SourcePrinter.Proofs.Closing.Dialect
import SourcePrinter.Proofs.Margins

/-! Comments in the text. A comment within a line ends at its end and nowhere before. A comment in
lines of its own has its marker on every line, but for what follows a line feed inside one of its
lines: that stands on a line of its own, as it is. -/

namespace SourcePrinter

/-! ### Comments within a line -/

namespace Brace

/-- What ends a comment within a line. -/
def closer : List Char := ['*', '/']

section

variable {pre text more : List Char} {margin : List Char}

theorem closer_infix_cons {c : Char} :
    closer <:+: c :: text ↔ (c = '*' ∧ text.head? = some '/') ∨ closer <:+: text := by
  rw [List.infix_cons_iff, closer, List.cons_prefix_cons, singleton_prefix]
  exact or_congr_left (and_congr_left' eq_comm)

/-- A text without a star holds no beginning of an end. -/
theorem closer_infix_append_left (h : '*' ∉ pre) : closer <:+: pre ++ text ↔ closer <:+: text := by
  induction pre with
  | nil => rfl
  | cons c rest ih =>
    simp only [List.mem_cons, not_or] at h
    rw [List.cons_append, closer_infix_cons, ih h.2]
    exact or_iff_right fun hc => h.1 hc.1.symm

/-- A text without a slash ends no comment. -/
theorem closer_infix_append_right (h : '/' ∉ more) :
    closer <:+: text ++ more ↔ closer <:+: text := by
  induction text with
  | nil =>
    refine iff_of_false (fun hc => h ?_) (by decide)
    exact hc.sublist.subset (by decide)
  | cons c rest ih =>
    rw [List.cons_append, closer_infix_cons, closer_infix_cons, ih]
    cases rest with
    | nil =>
      have hhead : more.head? ≠ some '/' := fun hc => h (List.mem_of_head? hc)
      simp [hhead]
    | cons d rest => rfl

/-- A margin does not make the end of a comment. -/
theorem closer_infix_of_shiftFrom (hm : '*' ∉ margin) {starts : Bool}
    (h : closer <:+: shiftFrom margin starts text) : closer <:+: text := by
  induction text generalizing starts with
  | nil => exact h
  | cons c rest ih =>
    rw [closer_infix_cons]
    by_cases hc : c = '\n'
    · rw [shiftFrom, if_pos hc, closer_infix_cons, hc] at h
      exact .inr (ih (h.resolve_left fun hstar => absurd hstar.1 (by decide)))
    · have hlead : '*' ∉ if starts then margin else [] := by
        cases starts
        · exact List.not_mem_nil
        · exact hm
      rw [shiftFrom, if_neg hc, closer_infix_append_left hlead, closer_infix_cons] at h
      refine h.imp (And.imp_right fun hhead => ?_) ih
      cases rest with
      | nil => exact hhead
      | cons d rest =>
        by_cases hd : d = '\n'
        · rw [shiftFrom, if_pos hd, hd] at hhead
          cases hhead
        · rw [shiftFrom, if_neg hd] at hhead
          exact hhead

/-- Behind a text without one, the end of a comment is the only one. -/
theorem eq_nil_of_closer {before after : List Char} (h : ¬ closer <:+: text)
    (heq : text ++ closer = before ++ closer ++ after) : after = [] := by
  induction after using List.reverseRecOn with
  | nil => rfl
  | append_singleton init d _ =>
    -- The last slash is that of the other end, so that end lies before the last star.
    have hlast : (text ++ ['*']) ++ ['/'] = (before ++ closer ++ init) ++ [d] := by
      simpa [closer] using heq
    have hslash : text ++ ['*'] = before ++ closer ++ init := (List.append_inj' hlast rfl).1
    induction init using List.reverseRecOn with
    | nil =>
      have hstar : text ++ ['*'] = (before ++ ['*']) ++ ['/'] := by simpa [closer] using hslash
      cases (List.append_inj' hstar rfl).2
    | append_singleton init d _ =>
      rw [← List.append_assoc] at hslash
      exact absurd ⟨before, init, (List.append_inj' hslash rfl).1.symm⟩ h

/-! The text of the comment -/

theorem spaceClosers_cons {c : Char} (h : ¬ (c = '*' ∧ text.head? = some '/')) :
    spaceClosers (c :: text) = c :: spaceClosers text := by
  cases text with
  | nil => rfl
  | cons d rest =>
    rw [spaceClosers, if_neg fun hcd => h ⟨hcd.1, congrArg some hcd.2⟩]

theorem head?_spaceClosers (text : List Char) : (spaceClosers text).head? = text.head? := by
  fun_cases spaceClosers text with
  | case1 | case2 | case4 => rfl
  | case3 c d rest h => rw [h.1]; rfl

/-- The scan leaves no end of a comment, also where a star or a slash stands beside one. -/
theorem not_closer_infix_spaceClosers (text : List Char) : ¬ closer <:+: spaceClosers text := by
  induction text using spaceClosers.induct with
  | case1 => decide
  | case2 c => exact fun h => absurd h.length_le (Nat.lt_irrefl 1)
  | case3 c d rest h ih =>
    rw [spaceClosers, if_pos h]
    simp [closer_infix_cons, ih]
  | case4 c d rest h ih =>
    rw [spaceClosers, if_neg h, closer_infix_cons, head?_spaceClosers]
    simpa [ih] using h

/-- The end of a comment with a space in it. -/
def spacedCloser : List Char := ['*', ' ', '/']

theorem spaceClosers_append_closer (h : ¬ closer <:+: pre) :
    spaceClosers (pre ++ closer ++ text) = pre ++ spacedCloser ++ spaceClosers text := by
  induction pre with
  | nil => rfl
  | cons c rest ih =>
    rw [closer_infix_cons, not_or] at h
    have hhead : ¬ (c = '*' ∧ (rest ++ closer ++ text).head? = some '/') := by
      cases rest with
      | nil => simp [closer]
      | cons d rest => exact h.1
    exact (spaceClosers_cons hhead).trans (congrArg (c :: ·) (ih h.2))

theorem spaceClosers_of_free (h : ¬ closer <:+: text) : spaceClosers text = text := by
  induction text with
  | nil => rfl
  | cons c rest ih =>
    rw [closer_infix_cons, not_or] at h
    rw [spaceClosers_cons h.1, ih h.2]

/-- The scan puts a space into each end of a comment and changes nothing else. -/
theorem spaceClosers_intercalate {pieces : List (List Char)}
    (h : ∀ piece ∈ pieces, ¬ closer <:+: piece) :
    spaceClosers (closer.intercalate pieces) = spacedCloser.intercalate pieces := by
  induction pieces with
  | nil => rfl
  | cons piece others ih =>
    rw [List.forall_mem_cons] at h
    cases others with
    | nil =>
      rw [List.intercalate_singleton, List.intercalate_singleton, spaceClosers_of_free h.1]
    | cons next others =>
      rw [List.intercalate_cons_cons, List.intercalate_cons_cons, spaceClosers_append_closer h.1,
        ih h.2]

/-- A text is cut at the ends of comments in it. -/
theorem exists_pieces (text : List Char) : ∃ piece others,
    text = closer.intercalate (piece :: others) ∧
      ∀ part ∈ piece :: others, ¬ closer <:+: part := by
  induction text using spaceClosers.induct with
  | case1 => exact ⟨[], [], rfl, by decide⟩
  | case2 c =>
    refine ⟨[c], [], rfl, fun part hpart h => ?_⟩
    rw [List.mem_singleton.1 hpart] at h
    exact absurd h.length_le (Nat.lt_irrefl 1)
  | case3 c d rest h ih =>
    obtain ⟨piece, others, hrest, hfree⟩ := ih
    refine ⟨[], piece :: others, ?_, List.forall_mem_cons.2 ⟨by decide, hfree⟩⟩
    rw [List.intercalate_cons_cons, ← hrest, h.1, h.2]
    rfl
  | case4 c d rest h ih =>
    obtain ⟨piece, others, hrest, hfree⟩ := ih
    rw [List.forall_mem_cons] at hfree
    have hcons : closer.intercalate ((c :: piece) :: others) = c :: d :: rest := by
      rw [hrest]
      cases others <;> rfl
    refine ⟨c :: piece, others, hcons.symm, List.forall_mem_cons.2 ⟨fun hc => ?_, hfree.2⟩⟩
    rcases closer_infix_cons.1 hc with ⟨rfl, hslash⟩ | hc
    · -- The piece begins with the slash, and so does what follows the star.
      obtain ⟨more, rfl⟩ := List.head?_eq_some_iff.1 hslash
      have hd : d = '/' := by
        cases others <;> exact (List.cons.inj hrest).1
      exact h ⟨rfl, hd⟩
    · exact hfree.1 hc

end

/-- A comment with the margin before its lines ends where the comment ends. -/
theorem shiftFrom_closes {margin : List Char} (hm : '*' ∉ margin) (text : List Char)
    {before after : List Char}
    (h : shiftFrom margin false ("/* ".toList ++ spaceClosers text ++ " */".toList) =
      before ++ closer ++ after) : after = [] := by
  have hfree : ¬ closer <:+: "/* ".toList ++ spaceClosers text ++ [' '] := by
    show ¬ closer <:+: '/' :: '*' :: ' ' :: (spaceClosers text ++ [' '])
    simp [closer_infix_cons, closer_infix_append_right, not_closer_infix_spaceClosers]
  -- The whole with the margin is what stands before the end with the margin, and the end.
  have hwhole : shiftFrom margin false ("/* ".toList ++ spaceClosers text ++ [' '] ++ closer) =
      shiftFrom margin false ("/* ".toList ++ spaceClosers text ++ [' ']) ++ closer := by
    rw [shiftFrom_append, endsLine_append]
    rfl
  have heq : shiftFrom margin false ("/* ".toList ++ spaceClosers text ++ [' ']) ++ closer =
      before ++ closer ++ after := by
    rw [← hwhole, ← h, List.append_assoc _ [' ']]
    rfl
  exact eq_nil_of_closer (fun hc => hfree (closer_infix_of_shiftFrom hm hc)) heq

variable (options : Options) (s : String) (column : Nat) (p : Pass)

/-- What is added for a comment in the middle of a line. -/
theorem inlineComment_lays : ∃ q, (inlineComment s).run options column p = .done q ∧
    p.writer.Adds (p.writer.due ++ shiftFrom p.writer.margin false
      ("/* ".toList ++ spaceClosers s.toList ++ " */".toList)) q.writer := by
  refine ⟨_, rfl, ?_⟩
  show p.writer.Adds _ (((p.writer.writeChars _).writeChars _).writeChars _)
  rw [← Writer.writeChars_append, ← Writer.writeChars_append, ← List.append_assoc,
    String.toList_ofList (l := spaceClosers s.toList)]
  have hdue := p.writer.shiftFrom_due (c := '/') (by decide)
    ("* ".toList ++ spaceClosers s.toList ++ " */".toList)
  exact hdue ▸ (p.writer.writeChars_lays _).1.toAdds

end Brace

/-! ### Comments in lines of their own -/

/-- Every line of a text is empty or begins with a margin and a marker. -/
def Marked (margin marker text : List Char) : Prop :=
  ∀ line ∈ text.splitOn '\n', line = [] ∨ margin ++ marker <+: line

instance (margin marker text : List Char) : Decidable (Marked margin marker text) :=
  inferInstanceAs (Decidable (∀ line ∈ text.splitOn '\n', line = [] ∨ margin ++ marker <+: line))

/-- A line of a comment behind its marker. -/
def commentLine (marker : List Char) (s : String) : List Char :=
  marker ++ if s.isEmpty then [] else ' ' :: s.toList

theorem commentLine_eq (marker s : String) :
    commentLine marker.toList s = (if s.isEmpty then marker else marker ++ " " ++ s).toList := by
  unfold commentLine
  split
  · exact List.append_nil _
  · simp

/-- The lines of a comment behind their markers. -/
def commentText (marker : List Char) (comment : Comment) : List Char :=
  comment.lines.flatMap fun s => commentLine marker s ++ ['\n']

section

variable {margin marker s t : List Char}

theorem marked_nil : Marked margin marker [] := fun _ hline =>
  .inl (List.mem_singleton.1 hline)

theorem marked_append_lineFeed :
    Marked margin marker (s ++ '\n' :: t) ↔ Marked margin marker s ∧ Marked margin marker t := by
  rw [Marked, List.splitOn_append_cons_self]
  exact List.forall_mem_append

/-- The margin of all lines takes no part in the question. -/
theorem marked_shift (hm : '\n' ∉ margin) (text : List Char) :
    Marked margin marker (shift margin text) ↔ Marked [] marker text := by
  rw [Marked, splitOn_shift hm, List.forall_mem_map]
  refine forall₂_congr fun line _ => ?_
  by_cases hline : line = []
  · simp [afterMargin, hline]
  · simp [afterMargin, hline, List.prefix_append_right_inj]

/-- A line of a comment is marked unless a line feed in it starts a line without the marker. -/
theorem marked_commentLine (hm : '\n' ∉ marker) (s : String) :
    Marked [] marker (commentLine marker s) ↔
      ∀ line ∈ (s.toList.splitOn '\n').tail, line = [] ∨ marker <+: line := by
  by_cases hempty : s.isEmpty
  · obtain rfl := String.isEmpty_iff.1 hempty
    have hline : (commentLine marker "").splitOn '\n' = [marker] := by
      rw [commentLine, if_pos hempty, List.append_nil, List.splitOn_eq_singleton hm]
    simp [Marked, hline]
  · obtain ⟨first, rest, hs⟩ := exists_splitOn s.toList
    have hline : (commentLine marker s).splitOn '\n' = (marker ++ ' ' :: first) :: rest := by
      have hspace : '\n' ∉ marker ++ [' '] := by simp [hm]
      rw [commentLine, if_neg hempty, List.append_cons, splitOn_append_of_line hspace hs,
        ← List.append_cons]
    rw [Marked, hline, hs, List.forall_mem_cons]
    exact and_iff_right (.inr (List.prefix_append marker _))

theorem marked_commentText (hm : '\n' ∉ marker) (comment : Comment) :
    Marked [] marker (commentText marker comment) ↔ ∀ s ∈ comment.lines,
      ∀ line ∈ (s.toList.splitOn '\n').tail, line = [] ∨ marker <+: line := by
  obtain ⟨lines⟩ := comment
  induction lines with
  | nil => exact iff_of_true marked_nil nofun
  | cons s rest ih =>
    have hcons : commentText marker ⟨s :: rest⟩ =
        commentLine marker s ++ '\n' :: commentText marker ⟨rest⟩ := by
      simp [commentText]
    rw [hcons, marked_append_lineFeed, marked_commentLine hm, ih]
    simp only [List.forall_mem_cons]

end

/-! ### Documents that are written as they are -/

/-- From the start of a line a document writes a text, which ends its last line. -/
structure Doc.Verbatim (options : Options) (d : Doc) (text : List Char) : Prop where
  ends : endsLine true text = true
  run (column : Nat) (p : Pass) : p.writer.atLineStart = true →
    ∃ q, d.run options column p = .done q ∧ q.writer = p.writer.writeChars text

namespace Doc.Verbatim

variable {options : Options} {a b d : Doc} {s t : List Char}

theorem empty : Doc.empty.Verbatim options [] := ⟨rfl, fun _ p _ => ⟨p, rfl, rfl⟩⟩

theorem newline : Doc.newline.Verbatim options ['\n'] := ⟨rfl, fun _ _ _ => ⟨_, rfl, rfl⟩⟩

theorem lineStart : Doc.lineStart.Verbatim options [] :=
  ⟨rfl, fun _ _ hp => ⟨_, rfl, if_pos hp⟩⟩

theorem line (s : String) : (Doc.line s).Verbatim options (s.toList ++ ['\n']) := by
  refine ⟨by rw [endsLine_append]; rfl, fun _ p _ => ⟨_, rfl, ?_⟩⟩
  rw [Writer.writeChars_append]
  rfl

theorem append (ha : a.Verbatim options s) (hb : b.Verbatim options t) :
    (a ++ b).Verbatim options (s ++ t) := by
  refine ⟨by rw [endsLine_append, ha.ends, hb.ends], fun column p hp => ?_⟩
  obtain ⟨q, hq, hwriter⟩ := ha.run column p hp
  have hstart : q.writer.atLineStart = true := by
    rw [hwriter, (p.writer.writeChars_lays s).2, hp, ha.ends]
  obtain ⟨r, hr, hwriter'⟩ := hb.run column q hstart
  refine ⟨r, ?_, by rw [hwriter', hwriter, Writer.writeChars_append]⟩
  show (a.run options column p).andThen (b.run options column) = .done r
  rw [hq]
  exact hr

theorem node (key : NodeKey) (h : d.Verbatim options s) : (Doc.node key d).Verbatim options s := by
  refine ⟨h.ends, fun column p hp => ?_⟩
  obtain ⟨q, hq, hwriter⟩ := h.run column (p.enter key).2 hp
  have hnode : (Doc.node key d).run options column p =
      let o := d.run options column (p.enter key).2
      o.mapPass (·.leave (p.enter key).1 o.failure.isSome) := rfl
  refine ⟨q.leave (p.enter key).1 false, ?_, hwriter⟩
  rw [hnode, hq]
  rfl

/-- Lines of a comment, one for each of its texts. -/
theorem comment {marker : List Char} {doc : String → Doc}
    (h : ∀ s, (doc s).Verbatim options (commentLine marker s ++ ['\n'])) (comment : Comment) :
    (concat (comment.lines.map doc)).Verbatim options (commentText marker comment) := by
  obtain ⟨lines⟩ := comment
  induction lines with
  | nil => exact empty
  | cons s rest ih => exact (h s).append ih

end Doc.Verbatim

namespace Brace

theorem lineComment_verbatim (options : Options) (s : String) :
    (lineComment s).Verbatim options (commentLine "//".toList s ++ ['\n']) := by
  rw [commentLine_eq]
  exact .line _

theorem docLine_verbatim (options : Options) (s : String) :
    (docLine s).Verbatim options (commentLine "///".toList s ++ ['\n']) := by
  rw [commentLine_eq]
  exact .line _

end Brace

/-! ### Comments of a dialect -/

/-- Where a comment has lines of its own. -/
inductive CommentPlace where
  | statement (id : NodeId)
  /-- Before a declaration. -/
  | declaration (info : DeclarationInfo)
  /-- Before a value of an enumeration. -/
  | enumCase (depth : Nat)
  /-- At the head of a unit, with a blank line behind it. -/
  | header (u : CodeUnit)

namespace CommentPlace

/-- What is written for a comment. -/
def doc (l : Language) (setting : Setting) (comment : Comment) : CommentPlace → Doc
  | statement id => l.statementDoc setting ⟨id, .comment comment⟩
  | declaration info =>
    l.preamble (l.context setting 0) { info with comment := some comment, attributes := [] }
  | enumCase depth => (l.context setting depth).docComment comment
  | header u => l.fileHeader { u with headerComment := some comment }

def marker : CommentPlace → List Char
  | statement _ | header _ => "//".toList
  | declaration _ | enumCase _ => "///".toList

/-- What stands behind the comment. -/
def rest : CommentPlace → List Char
  | header _ => ['\n']
  | statement _ | declaration _ | enumCase _ => []

def text (comment : Comment) (place : CommentPlace) : List Char :=
  commentText place.marker comment ++ place.rest

theorem lineFeed_not_mem_marker (place : CommentPlace) : '\n' ∉ place.marker := by
  have hmarkers : '\n' ∉ "//".toList ∧ '\n' ∉ "///".toList := by decide
  cases place with
  | statement | header => exact hmarkers.1
  | declaration | enumCase => exact hmarkers.2

/-- Behind the comment there is nothing to mark. -/
theorem marked_text (place : CommentPlace) (comment : Comment) :
    Marked [] place.marker (place.text comment) ↔
      Marked [] place.marker (commentText place.marker comment) := by
  cases place with
  | header u => exact marked_append_lineFeed.trans (and_iff_left marked_nil)
  | statement | declaration | enumCase => rw [text, rest, List.append_nil]

variable (d : Dialect) (options : Options) (setting : Setting) (comment : Comment)

theorem docComment_verbatim :
    (d.language.docComment comment).Verbatim options (commentText "///".toList comment) := by
  have h : (Brace.docLines comment.lines ++ Doc.lineStart).Verbatim options
      (commentText "///".toList comment ++ []) :=
    (Doc.Verbatim.comment (Brace.docLine_verbatim options) comment).append .lineStart
  rw [List.append_nil] at h
  cases d <;> exact h

theorem doc_verbatim (place : CommentPlace) :
    (place.doc d.language setting comment).Verbatim options (place.text comment) := by
  have hlines : (Doc.concat (comment.lines.map d.language.hooks.lineComment)).Verbatim options
      (commentText "//".toList comment) := by
    cases d <;> exact .comment (Brace.lineComment_verbatim options) comment
  cases place with
  | statement id => exact (hlines.node ⟨.statement, id⟩).append .lineStart
  | declaration info => exact (docComment_verbatim d options comment).append .empty
  | enumCase depth =>
    rw [text, rest, List.append_nil, doc, (d.language.context_speaks setting depth).docComment]
    exact docComment_verbatim d options comment
  | header u => exact hlines.append .newline

end CommentPlace

/-- What C# and Swift write at the start of a line for a comment, as a statement, before a
declaration or a value of an enumeration, or at the head of a unit, are its lines behind their
markers with the indentation before them. Every line of that is empty or has indentation and a
marker in front exactly if each line feed inside a line of the comment stands before nothing or
before a marker. -/
theorem Dialect.comments_are_marked (d : Dialect) (options : Options) (setting : Setting)
    (comment : Comment) (place : CommentPlace) (column : Nat) (p : Pass)
    (hp : p.writer.atLineStart = true) :
    ∃ q, (place.doc d.language setting comment).run options column p = .done q ∧
      p.writer.Adds (shift p.writer.margin (place.text comment)) q.writer ∧
      (Marked p.writer.margin place.marker (shift p.writer.margin (place.text comment)) ↔
        ∀ s ∈ comment.lines, ∀ line ∈ (s.toList.splitOn '\n').tail,
          line = [] ∨ place.marker <+: line) := by
  obtain ⟨q, hq, hwriter⟩ := (place.doc_verbatim d options setting comment).run column p hp
  have hadds := (p.writer.writeChars_lays (place.text comment)).1.toAdds
  rw [hp, ← hwriter] at hadds
  refine ⟨q, hq, hadds, ?_⟩
  rw [marked_shift p.writer.lineFeed_not_mem_margin, place.marked_text,
    marked_commentText place.lineFeed_not_mem_marker]

/-- A comment before a declaration, the second of whose lines has a line feed before a marker. -/
def Comment.summary : Comment := ⟨["Summary.", "", "a\n/// b"]⟩

theorem Comment.summary_is_marked :
    let p := (Pass.initial .initial).mapWriter (·.indent)
    p.writer.atLineStart = true ∧
      ∃ q, ((CommentPlace.enumCase 0).doc Dialect.csharp.language (.of .initial none false)
        summary).run .initial 0 p = .done q ∧
        p.writer.Adds "    /// Summary.\n    ///\n    /// a\n    /// b\n".toList q.writer ∧
        Marked p.writer.margin "///".toList
          "    /// Summary.\n    ///\n    /// a\n    /// b\n".toList := by
  intro p
  obtain ⟨q, hq, hadds, hmarked⟩ := Dialect.comments_are_marked .csharp .initial
    (.of .initial none false) summary (.enumCase 0) 0 p rfl
  have htext : shift p.writer.margin ((CommentPlace.enumCase 0).text summary) =
      "    /// Summary.\n    ///\n    /// a\n    /// b\n".toList := by decide
  rw [htext] at hadds hmarked
  exact ⟨rfl, q, hq, hadds, hmarked.2 (by decide)⟩

/-- A line feed inside a line of a comment puts the rest of it on a line without a marker. -/
theorem Comment.lineFeed_leaks : ∃ out,
    (Dialect.csharp.language.statementDoc (.of .initial none false)
      ⟨0, .comment ⟨["a\nb"]⟩⟩).render .initial = .ok out ∧
      out.text = "// a\nb\n" ∧ ¬ Marked [] "//".toList out.text.toList :=
  ⟨_, rfl, rfl, by decide⟩

end SourcePrinter
