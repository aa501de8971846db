import SourcePrinter.Proofs.Runs

/-! Documents as lists of moves. As long as no list wraps, a run of a document has the writer do one
thing after the other, and the place where a list began does not matter. So a text can be taken
apart where the list of moves can. -/

namespace SourcePrinter

/-- What a document has the writer do, or what stands in its way. -/
inductive Move where
  | write (s : String)
  | separator (s : String)
  | newline
  | lineStart
  | typeGap
  | indent
  | dedent
  | gap (g : Gap)
  | fault (detail : String)

namespace Move

/-- The writer after a move that breaks no line. -/
def apply (options : Options) (w : Writer) : Move → Writer
  | write s | separator s => w.write s
  | newline => w.newline
  | lineStart => w.ensureLineStart
  | typeGap => w.blankLines options.typeGap
  | indent => w.indent
  | dedent => w.dedent
  | gap _ | fault _ => w

/-- The writer breaks no line at the move. -/
def Fits (options : Options) (w : Writer) : Move → Prop
  | separator s => (w.writeSeparator s options.wrapColumn 0).2 = false
  | _ => True

instance (options : Options) (w : Writer) (move : Move) : Decidable (move.Fits options w) := by
  unfold Fits
  split <;> infer_instance

theorem fits_separator {options : Options} {w : Writer} {s : String} :
    (separator s).Fits options w ↔
      w.position.virtualColumn + s.length ≤ options.wrapColumn := by
  show (w.writeSeparator s options.wrapColumn 0).2 = false ↔ _
  unfold Writer.writeSeparator
  split
  · next h => exact iff_of_true rfl h
  · next h => exact iff_of_false nofun h

/-- The error that the move ends a run with. -/
def failure (strict : Bool) : Move → Option RenderError
  | gap g => if strict then some (.unsupported g) else none
  | fault detail => some (.malformed detail)
  | _ => none

end Move

/-- The writer after moves that break no line. -/
def perform (options : Options) (moves : List Move) (w : Writer) : Writer :=
  moves.foldl (Move.apply options) w

/-- No separator among the moves breaks its line. -/
def Unbroken (options : Options) : List Move → Writer → Prop
  | [], _ => True
  | move :: rest, w => move.Fits options w ∧ Unbroken options rest (move.apply options w)

instance decidableUnbroken (options : Options) :
    (moves : List Move) → (w : Writer) → Decidable (Unbroken options moves w)
  | [], _ => .isTrue trivial
  | move :: rest, w =>
    have := decidableUnbroken options rest (move.apply options w)
    inferInstanceAs (Decidable (move.Fits options w ∧ _))

section

variable {options : Options} {a b : List Move} {w : Writer}

@[simp] theorem perform_nil : perform options [] w = w := rfl

@[simp] theorem perform_cons (move : Move) :
    perform options (move :: a) w = perform options a (move.apply options w) := rfl

@[simp] theorem perform_append :
    perform options (a ++ b) w = perform options b (perform options a w) := List.foldl_append

theorem unbroken_append : Unbroken options (a ++ b) w ↔
    Unbroken options a w ∧ Unbroken options b (perform options a w) := by
  induction a generalizing w with
  | nil => exact (iff_of_eq (true_and _)).symm
  | cons move more ih => exact (and_congr_right fun _ => ih).trans and_assoc.symm

end

/-! ### Moves of documents -/

namespace Doc

/-- The moves of a document in a type, or outside any. -/
def moves : Doc → Option TypeScope → List Move
  | empty, _ => []
  | append first second, scope => first.moves scope ++ second.moves scope
  | text s, _ => [.write s]
  | newline, _ => [.newline]
  | lineStart, _ => [.lineStart]
  | typeGap, _ => [.typeGap]
  | nested body, scope => .indent :: body.moves scope ++ [.dedent]
  | separator s, _ => [.separator s]
  | aligned body, scope | node _ body, scope | synthetic _ body, scope => body.moves scope
  | inside inner body, _ => body.moves (some inner)
  | perScope body, scope => (body scope).moves scope
  | unsupported gap remark, scope => .gap gap :: remark.moves scope
  | malformed detail, _ => [.fault detail]

@[simp] theorem moves_append (first second : Doc) (scope : Option TypeScope) :
    (first ++ second).moves scope = first.moves scope ++ second.moves scope := rfl

/-- The first move that stands in the way ends a run. -/
theorem failure_moves (d : Doc) (scope : Option TypeScope) (strict : Bool) :
    (d.events scope).failure strict = (d.moves scope).findSome? (Move.failure strict) := by
  induction d generalizing scope with
  | empty | text | newline | lineStart | typeGap | separator | malformed => rfl
  | append first second ih ih' =>
    rw [events, Events.failure_append, moves, List.findSome?_append, ih, ih']
  | nested body ih =>
    rw [events, moves, List.findSome?_append, List.findSome?_cons, ih]
    exact (Option.or_none).symm
  | aligned body ih => exact ih scope
  | node key body ih | synthetic key body ih =>
    rw [events, moves, Events.failure, ih]
    exact Option.or_none
  | inside inner body ih => exact ih _
  | perScope body ih => exact ih scope scope
  | unsupported gap remark ih =>
    -- The remark is reached under the lenient policy only.
    rw [events, moves, Events.failure, List.findSome?_cons, ih, Move.failure]
    cases strict with
    | true => rfl
    | false => exact Option.or_none

/-- A rendering succeeds exactly if no move stands in its way. -/
theorem exists_render_iff_moves {options : Options} {d : Doc} :
    (∃ out, d.render options = .ok out) ↔
      (d.moves none).findSome? (Move.failure options.strict) = none := by
  rw [exists_render_iff, failure_moves]

end Doc

/-! ### Moves and runs -/

namespace Writer

variable (w : Writer)

/-- A writer outside any list. -/
def bare : Writer := { w with alignment := none }

theorem bare_putMany (c : Char) (n : Nat) : (w.putMany c n).bare = w.bare.putMany c n := by
  induction n generalizing w with
  | zero => rfl
  | succ n ih => exact ih (w.put c)

theorem bare_settle : w.settle.bare = w.bare.settle := by
  show (if w.atLineStart then _ else w).bare = if w.atLineStart then _ else w.bare
  split
  · have hfill := w.bare_putMany (w.indentation.fill w.level).2 (w.indentation.fill w.level).1
    exact congrArg (fun v : Writer => { v with atLineStart := false }) hfill
  · rfl

theorem bare_writeChars (text : List Char) : (w.writeChars text).bare = w.bare.writeChars text := by
  induction text generalizing w with
  | nil => rfl
  | cons c more ih =>
    have hc : (w.writeChar c).bare = w.bare.writeChar c := by
      unfold writeChar
      split
      · rfl
      · exact congrArg (·.put c) w.bare_settle
    rw [writeChars_cons, ih, hc, writeChars_cons]

theorem bare_ensureLineStart : w.ensureLineStart.bare = w.bare.ensureLineStart := by
  show (if w.atLineStart then w else w.newline).bare = if w.atLineStart then _ else _
  split <;> rfl

theorem bare_blankLines (count : Nat) : (w.blankLines count).bare = w.bare.blankLines count := by
  induction count generalizing w with
  | zero => rfl
  | succ count ih => exact ih w.newline

theorem bare_beginList : w.beginList.1.bare = w.bare := by
  unfold beginList
  split <;> rfl

theorem bare_endList (owned : Bool) : (w.endList owned).bare = w.bare := by
  unfold endList
  split <;> rfl

end Writer

namespace Doc

variable {options : Options} {d : Doc} {column : Nat} {p q : Pass} {f : Forest Visited}

/-- A run that breaks no line performs the moves of its document. -/
theorem Runs.perform_eq (h : Runs options d column p f q)
    (hu : Unbroken options (d.moves p.scope) p.writer.bare) :
    q.writer.bare = perform options (d.moves p.scope) p.writer.bare := by
  -- On the run. Only a separator that breaks its line reads where the list began, and none does.
  induction h with
  | empty => rfl
  | append h _ ih ih' =>
    obtain ⟨hfirst, hsecond⟩ := unbroken_append.1 hu
    have hq := ih hfirst
    rw [← hq, ← h.surroundings.1] at hsecond
    rw [ih' hsecond, hq, h.surroundings.1]
    exact perform_append.symm
  | text => exact Writer.bare_writeChars _ _
  | newline => rfl
  | lineStart => exact Writer.bare_ensureLineStart _
  | typeGap => exact Writer.bare_blankLines _ _
  | @nested body column p q f _ ih =>
    obtain ⟨hbody, -⟩ := unbroken_append.1 hu.2
    have hq := ih hbody
    rw [moves, perform_append, perform_cons]
    exact congrArg Writer.dedent hq
  | @aligned body column p q f _ ih =>
    have hbegin : (p.mapWriter fun w => w.beginList.1).writer.bare = p.writer.bare :=
      p.writer.bare_beginList
    rw [hbegin] at ih
    exact (q.writer.bare_endList _).trans (ih hu)
  | @separator s column p =>
    have hbare := Move.fits_separator.1 hu.1
    have hfits : p.writer.position.virtualColumn + s.length ≤ options.wrapColumn := hbare
    have hwrite : (p.writer.writeSeparator s options.wrapColumn column).1 = p.writer.write s := by
      rw [Writer.writeSeparator, if_pos hfits]
    exact (congrArg Writer.bare hwrite).trans (Writer.bare_writeChars _ _)
  | node _ _ _ ih | unseen _ _ ih | inside _ ih | perScope _ ih => exact ih hu
  | @synthetic key body column p q f _ ih =>
    rw [Pass.scope_markSynthetic, Pass.writer_markSynthetic] at ih
    rw [Pass.writer_unmarkSynthetic]
    exact ih hu
  | unsupported _ _ ih => exact ih hu.2

/-- The text of a rendering that breaks no line. -/
theorem text_of_render {out : Rendering} (h : d.render options = .ok out)
    (hu : Unbroken options (d.moves none) (.new options.indentation)) :
    out.text = (perform options (d.moves none) (.new options.indentation)).text := by
  obtain ⟨f, q, hr, rfl⟩ := runs_of_render h
  have hq : q.writer.bare = perform options (d.moves none) (.new options.indentation) :=
    hr.perform_eq hu
  show q.writer.bare.text = _
  rw [hq]

end Doc

/-! ### Levels -/

/-- Moves that leave each level that they enter. -/
inductive Balanced : List Move → Prop where
  | nil : Balanced []
  | move {move : Move} {rest : List Move} :
    move ≠ .indent → move ≠ .dedent → Balanced rest → Balanced (move :: rest)
  | level {body rest : List Move} :
    Balanced body → Balanced rest → Balanced (.indent :: body ++ .dedent :: rest)

namespace Balanced

variable {a b : List Move}

theorem append (ha : Balanced a) (hb : Balanced b) : Balanced (a ++ b) := by
  induction ha with
  | nil => exact hb
  | move hi hd _ ih => exact .move hi hd ih
  | @level body rest hbody _ _ ih =>
    rw [List.append_assoc]
    exact .level hbody ih

theorem single {move : Move} (hi : move ≠ .indent) (hd : move ≠ .dedent) : Balanced [move] :=
  .move hi hd .nil

end Balanced

theorem Doc.moves_balanced (d : Doc) (scope : Option TypeScope) : Balanced (d.moves scope) := by
  induction d generalizing scope with
  | empty => exact .nil
  | text | newline | lineStart | typeGap | separator | malformed => exact .single nofun nofun
  | append first second ih ih' => exact (ih scope).append (ih' scope)
  | nested body ih => exact .level (ih scope) .nil
  | aligned body ih | node _ body ih | synthetic _ body ih => exact ih scope
  | inside inner body ih => exact ih _
  | perScope body ih => exact ih scope scope
  | unsupported gap remark ih => exact .move nofun nofun (ih scope)

end SourcePrinter
