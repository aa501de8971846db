import SourcePrinter.Script
import SourcePrinter.Proofs.Runs

/-! What documents and scripts have a writer do: the operations, one after the other, that lead from
the writer before to the writer after, whether the rendering comes to its end or not. -/

namespace SourcePrinter

namespace WriterOp

theorem runAll_append (w : Writer) (a b : List WriterOp) :
    runAll w (a ++ b) = runAll (runAll w a) b := List.foldl_append

/-- Operations that an error leaves out. -/
def unlessFailed (failure : Option RenderError) (ops : List WriterOp) : List WriterOp :=
  match failure with
  | none => ops
  | some _ => []

end WriterOp

open WriterOp (runAll_append unlessFailed)

/-! ### Documents -/

/-- An operation at the end of a rendering that did not fail. -/
theorem Outcome.writer_onDone (o : Outcome) (op : WriterOp) :
    (o.onDone (·.mapWriter fun w => (op.run w).1)).pass.writer =
      WriterOp.runAll o.pass.writer (unlessFailed o.failure [op]) := by
  unfold onDone
  split
  · next hdone => rw [hdone]; rfl
  · next hfailed => rw [hfailed]; rfl

namespace Doc

/-- The operations of a run. A level in which it fails is not left, and a list is not ended. -/
def operations (options : Options) : Doc → Nat → Pass → List WriterOp
  | empty, _, _ | malformed _, _, _ => []
  | append first second, column, p =>
    let o := first.run options column p
    first.operations options column p ++
      unlessFailed o.failure (second.operations options column o.pass)
  | text s, _, _ => [.write s]
  | newline, _, _ => [.newline]
  | lineStart, _, p => if p.writer.atLineStart then [] else [.newline]
  | typeGap, _, _ => [.blankLines options.typeGap]
  | nested body, column, p =>
    let entered := p.mapWriter (·.indent)
    .indent :: (body.operations options column entered ++
      unlessFailed (body.run options column entered).failure [.dedent])
  | aligned body, _, p =>
    let column := p.writer.beginList.2.1
    let begun := { p with writer := p.writer.beginList.1 }
    .beginList :: (body.operations options column begun ++
      unlessFailed (body.run options column begun).failure [.endList p.writer.beginList.2.2])
  | separator s, column, _ => [.separator s options.wrapColumn column]
  | node key body, column, p => body.operations options column (p.enter key).2
  | synthetic key body, column, p => body.operations options column (p.markSynthetic key)
  | inside scope body, column, p => body.operations options column (p.pushScope scope)
  | perScope body, column, p => (body p.scope).operations options column p
  | unsupported _ remark, column, p =>
    if options.strict then [] else remark.operations options column p

/-- The writer after a run is the writer after its operations. -/
theorem run_operations (options : Options) (d : Doc) (column : Nat) (p : Pass) :
    (d.run options column p).pass.writer =
      WriterOp.runAll p.writer (d.operations options column p) := by
  induction d generalizing column p with
  | empty | malformed | text | newline | typeGap | separator => rfl
  | append first second ih ih' =>
    have hfirst := ih column p
    have hsecond := ih' column (first.run options column p).pass
    simp only [run, Outcome.andThen, operations, runAll_append, ← hfirst]
    cases (first.run options column p).failure with
    | none => exact hsecond
    | some e => rfl
  | lineStart =>
    simp only [run, Outcome.done, Pass.mapWriter, operations, Writer.ensureLineStart]
    split <;> rfl
  | nested body ih =>
    have hbody := ih column (p.mapWriter (·.indent))
    refine (Outcome.writer_onDone _ .dedent).trans ?_
    rw [hbody]
    exact (runAll_append _ _ _).symm
  | aligned body ih =>
    have hbody := ih p.writer.beginList.2.1 { p with writer := p.writer.beginList.1 }
    have hrun : (aligned body).run options column p =
        (body.run options p.writer.beginList.2.1 { p with writer := p.writer.beginList.1 }).onDone
          (·.mapWriter fun w => ((WriterOp.endList p.writer.beginList.2.2).run w).1) := rfl
    rw [hrun, Outcome.writer_onDone, hbody]
    exact (runAll_append _ _ _).symm
  | node key body ih => exact ih column (p.enter key).2
  | synthetic key body ih =>
    have hbody := ih column (p.markSynthetic key)
    rw [Pass.writer_markSynthetic] at hbody
    exact (Pass.writer_unmarkSynthetic _ _ _).trans hbody
  | inside inner body ih => exact ih column (p.pushScope inner)
  | perScope body ih => exact ih p.scope column p
  | unsupported gap remark ih =>
    simp only [run, operations]
    split
    · rfl
    · exact ih column p

end Doc

/-! ### Scripts -/

namespace Script

/-- Before the first step of a script. -/
def State.start (around : Surroundings) : State := ⟨.initial around.options, [], none⟩

/-- Where a list has begun. -/
def State.begun (s : State) : State :=
  { s with pass := { s.pass with writer := s.pass.writer.beginList.1 } }

mutual

/-- The operations of a step. -/
def stepOperations (around : Surroundings) : Step → State → List WriterOp
  | ⟨_, action⟩, s => actionOperations around action s

def actionOperations (around : Surroundings) : Action → State → List WriterOp
  | .blankLines count, _ => [.blankLines count]
  | .indent, _ => [.indent]
  | .dedent, _ => [.dedent]
  | .inScope scope steps, s =>
    stepsOperations around steps { s with pass := s.pass.pushScope scope }
  | .list separator items, s =>
    let column := s.pass.writer.beginList.2.1
    .beginList :: (itemsOperations around separator column true items s.begun ++
      unlessFailed (runItems around separator column true items s.begun).failure
        [.endList s.pass.writer.beginList.2.2])
  | action, s => (actionDoc around action).operations around.options 0 s.pass

/-- The operations of steps, up to the first that fails. -/
def stepsOperations (around : Surroundings) : List Step → State → List WriterOp
  | [], _ => []
  | step :: more, s =>
    let after := runStep around step s
    stepOperations around step s ++ unlessFailed after.failure (stepsOperations around more after)

/-- The operations of the items of a list, up to the first that fails. -/
def itemsOperations (around : Surroundings) (separator : String) (column : Nat) (first : Bool) :
    List (List Step) → State → List WriterOp
  | [], _ => []
  | item :: more, s =>
    let part : List WriterOp :=
      if first then [] else [.separator separator around.options.wrapColumn column]
    let parted := s.mapWriter (WriterOp.runAll · part)
    let after := runSteps around item parted
    part ++ (stepsOperations around item parted ++
      unlessFailed after.failure (itemsOperations around separator column false more after))

end

/-- The operations of a script, in which a step that fails does not end the others. -/
def operations (around : Surroundings) : List Step → State → List WriterOp
  | [], _ => []
  | step :: more, s =>
    stepOperations around step s ++
      operations around more { runStep around step s with failure := none }

theorem write_operations (around : Surroundings) (d : Doc) (s : State) :
    (s.write around d).pass.writer =
      WriterOp.runAll s.pass.writer (d.operations around.options 0 s.pass) :=
  Doc.run_operations around.options d 0 s.pass

mutual

theorem runStep_operations (around : Surroundings) : ∀ (step : Step) (s : State),
    (runStep around step s).pass.writer =
      WriterOp.runAll s.pass.writer (stepOperations around step s)
  | ⟨_, action⟩, s => runAction_operations around action s

theorem runAction_operations (around : Surroundings) : ∀ (action : Action) (s : State),
    (runAction around action s).pass.writer =
      WriterOp.runAll s.pass.writer (actionOperations around action s)
  | .blankLines _, _ | .indent, _ | .dedent, _ => rfl
  | .inScope scope steps, s =>
    runSteps_operations around steps { s with pass := s.pass.pushScope scope }
  | .list separator items, s => by
    have hitems := runItems_operations around separator s.pass.writer.beginList.2.1 true items
      s.begun
    obtain ⟨after, hafter⟩ : ∃ after,
        runItems around separator s.pass.writer.beginList.2.1 true items s.begun = after := ⟨_, rfl⟩
    have hrun : runAction around (.list separator items) s =
        match after.failure with
        | none => after.mapWriter (·.endList s.pass.writer.beginList.2.2)
        | some _ => after := hafter ▸ rfl
    rw [hafter] at hitems
    rw [hrun, actionOperations, hafter]
    refine Eq.trans ?_ (runAll_append s.begun.pass.writer _ _).symm
    rw [← hitems]
    cases after.failure <;> rfl
  | .write _, s | .writeLine _, s | .newline, s | .space, s | .lineStart, s | .identifier _, s
  | .qualified _, s | .verbatim _, s | .resolve .., s | .describe, s | .docComment _, s
  | .unsupported .., s | .malformed _, s | .braceInlineComment _, s | .braceLineComment _, s
  | .braceDocComment _, s | .braceCharacter .., s | .braceInteger .., s | .render .., s =>
    write_operations around _ s

theorem runSteps_operations (around : Surroundings) : ∀ (steps : List Step) (s : State),
    (runSteps around steps s).pass.writer =
      WriterOp.runAll s.pass.writer (stepsOperations around steps s)
  | [], _ => rfl
  | step :: more, s => by
    have hstep := runStep_operations around step s
    have hmore := runSteps_operations around more (runStep around step s)
    simp only [runSteps, stepsOperations, runAll_append, ← hstep]
    cases (runStep around step s).failure with
    | none => exact hmore
    | some e => rfl

theorem runItems_operations (around : Surroundings) (separator : String) (column : Nat)
    (first : Bool) : ∀ (items : List (List Step)) (s : State),
    (runItems around separator column first items s).pass.writer =
      WriterOp.runAll s.pass.writer (itemsOperations around separator column first items s)
  | [], _ => rfl
  | item :: more, s => by
    obtain ⟨part, hpart⟩ : ∃ part : List WriterOp, part =
        if first then [] else [.separator separator around.options.wrapColumn column] := ⟨_, rfl⟩
    have hparted : s.mapWriter (WriterOp.runAll · part) = if first then s else
        s.mapWriter fun w => (w.writeSeparator separator around.options.wrapColumn column).1 := by
      rw [hpart]
      cases first <;> rfl
    have hitem := runSteps_operations around item (s.mapWriter (WriterOp.runAll · part))
    have hmore := runItems_operations around separator column false more
      (runSteps around item (s.mapWriter (WriterOp.runAll · part)))
    simp only [runItems, itemsOperations, ← hpart, ← hparted, runAll_append]
    refine Eq.trans ?_ (congrArg (WriterOp.runAll · _) hitem)
    cases (runSteps around item (s.mapWriter (WriterOp.runAll · part))).failure with
    | none => exact hmore
    | some e => rfl

end

/-- The writer after a script is the writer after its operations. -/
theorem runAll_operations (around : Surroundings) (steps : List Step) (s : State) :
    (runAll around steps s).pass.writer =
      WriterOp.runAll s.pass.writer (operations around steps s) := by
  induction steps generalizing s with
  | nil => rfl
  | cons step more ih =>
    rw [operations, runAll_append, ← runStep_operations]
    exact ih { runStep around step s with failure := none }

end Script

end SourcePrinter
