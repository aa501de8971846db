import SourcePrinter.Proofs.Lists
import SourcePrinter.Proofs.Operations
import SourcePrinter.Script.Machine

/-! Machines that do not abort. Where a machine whose counts are checked comes to an end, every
count has fitted its word: the other machine then does the same, and both do what a writer does
whose counts are of any size. No bound on the counts is assumed; that the checked machine comes to
an end shows that they were in range. -/

namespace SourcePrinter

/-- The checked machine aborts, or every machine gives `a`. -/
def Exact {α : Type} (x : Machine → Option α) (a : α) : Prop :=
  x .checked = none ∨ ∀ m, x m = some a

namespace Exact

variable {α β : Type} {x y : Machine → Option α} {a b : α}

theorem pure (a : α) : Exact (fun _ => some a) a := .inr fun _ => rfl

theorem none (a : α) : Exact (fun _ => Option.none) a := .inl rfl

theorem fit (n : Nat) : Exact (·.fit n) n := by
  by_cases h : n < Machine.words
  · exact .inr fun _ => if_pos h
  · exact .inl (if_neg h)

theorem bind {f : Machine → α → Option β} {c : β} (h : Exact x a)
    (h' : Exact (fun m => f m a) c) : Exact (fun m => x m >>= f m) c := by
  rcases h with h | h
  · exact .inl (congrArg (· >>= f .checked) h)
  · have hx : (fun m => x m >>= f m) = fun m => f m a :=
      funext fun m => congrArg (· >>= f m) (h m)
    rwa [hx]

theorem map (h : Exact x a) (f : α → β) : Exact (fun m => (x m).map f) (f a) := by
  rcases h with h | h
  · exact .inl (congrArg (Option.map f) h)
  · exact .inr fun m => congrArg (Option.map f) (h m)

theorem ite {c : Prop} [Decidable c] (h : c → Exact x a) (h' : ¬c → Exact y b) :
    Exact (fun m => if c then x m else y m) (if c then a else b) := by
  split
  · next hc => exact h hc
  · next hc => exact h' hc

/-- What the checked machine gives is what there is to give. -/
theorem eq_of_checked (h : Exact x a) (hb : x .checked = some b) : b = a ∧ ∀ m, x m = some a := by
  rcases h with h | h
  · exact absurd (h.symm.trans hb) nofun
  · exact ⟨Option.some.inj (hb.symm.trans (h .checked)), h⟩

end Exact

open Machine (longest)

/-! ### Writers -/

theorem Position.step?_exact (tabWidth : Nat) (p : Position) (c : Char) :
    Exact (fun m => p.step? m tabWidth c) (p.step tabWidth c) := by
  refine .ite (fun hc => ?_) fun _ => ?_
  · subst hc
    exact (Exact.fit _).bind (.pure _)
  · exact (Exact.fit _).bind ((Exact.fit _).bind (.pure _))

theorem Indentation.fill?_exact (i : Indentation) (level : Nat) :
    Exact (fun m => i.fill? m level) (i.fill level) :=
  .ite (fun _ => .pure _) fun _ => (Exact.fit _).bind (.pure _)

namespace Writer

variable (w : Writer)

theorem put?_exact (c : Char) : Exact (fun m => w.put? m c) (w.put c) := by
  refine (Position.step?_exact _ _ _).bind ?_
  by_cases hlongest : (w.position.step w.indentation.width c).offset ≤ longest
  · simp only [if_pos hlongest]
    exact .pure _
  · simp only [if_neg hlongest]
    exact .none _

theorem putMany?_exact (c : Char) (n : Nat) :
    Exact (fun m => w.putMany? m c n) (w.putMany c n) := by
  induction n generalizing w with
  | zero => exact .pure _
  | succ n ih => exact (w.put?_exact c).bind (ih _)

theorem newline?_exact : Exact (fun m => w.newline? m) w.newline :=
  (w.put?_exact '\n').bind (.pure _)

theorem settle?_exact : Exact (fun m => w.settle? m) w.settle := by
  refine .ite (fun _ => (Indentation.fill?_exact _ _).bind ?_) fun _ => .pure _
  by_cases hlongest : (w.indentation.fill w.level).1 ≤ longest
  · simp only [if_pos hlongest]
    exact (w.putMany?_exact _ _).bind (.pure _)
  · simp only [if_neg hlongest]
    exact .none _

theorem writeChar?_exact (c : Char) : Exact (fun m => w.writeChar? m c) (w.writeChar c) :=
  .ite (fun _ => w.newline?_exact) fun _ => w.settle?_exact.bind (put?_exact _ c)

theorem writeChars?_exact (text : List Char) :
    Exact (fun m => w.writeChars? m text) (w.writeChars text) := by
  induction text generalizing w with
  | nil => exact .pure _
  | cons c more ih => exact (w.writeChar?_exact c).bind (ih _)

theorem write?_exact (text : String) : Exact (fun m => w.write? m text) (w.write text) :=
  w.writeChars?_exact _

theorem writeLine?_exact (text : String) :
    Exact (fun m => w.writeLine? m text) (w.writeLine text) :=
  (w.write?_exact text).bind (newline?_exact _)

theorem blankLines?_exact (count : Nat) :
    Exact (fun m => w.blankLines? m count) (w.blankLines count) := by
  induction count generalizing w with
  | zero => exact .pure _
  | succ count ih => exact w.newline?_exact.bind (ih _)

theorem ensureLineStart?_exact : Exact (fun m => w.ensureLineStart? m) w.ensureLineStart :=
  .ite (fun _ => .pure _) fun _ => w.newline?_exact

theorem indent?_exact : Exact (fun m => w.indent? m) w.indent := (Exact.fit _).bind (.pure _)

theorem nextPosition?_exact : Exact (fun m => w.nextPosition? m) w.nextPosition := by
  refine .ite (fun _ => (Exact.fit _).bind ?_) fun _ => .pure _
  unfold Indentation.fill
  cases w.indentation.useTabs <;>
    exact (Exact.fit _).bind ((Exact.fit _).bind ((Exact.fit _).bind (.pure _)))

/-! Padding. The loops of a machine are those that padding comes to. -/

section Loops

variable {m : Machine} {c : Char} {test : Writer → Option Bool} {w : Writer}

theorem putWhile?_of_none (h : test w = none) : w.putWhile? m c test = none := by
  rw [putWhile?, h]

theorem putWhile?_of_false (h : test w = some false) : w.putWhile? m c test = some w := by
  rw [putWhile?, h]

theorem putWhile?_of_true (h : test w = some true) :
    w.putWhile? m c test = w.put? m c >>= (·.putWhile? m c test) := by
  rw [putWhile?, h]
  simp only
  split
  · next hput => rw [hput]; rfl
  · next hput => rw [hput]; rfl

end Loops

/-- A loop with exact tests is that of the writer. -/
theorem Loop.exact {condition : Writer → Prop} [DecidablePred condition] {c : Char}
    {test : Machine → Writer → Option Bool} {w v : Writer} (h : Loop condition c w v)
    (htest : ∀ u, Exact (fun m => test m u) (decide (condition u))) :
    Exact (fun m => w.putWhile? m c (test m)) v := by
  induction h with
  | @stop u hu =>
    rcases htest u with h | h
    · exact .inl (putWhile?_of_none h)
    · exact .inr fun m => putWhile?_of_false ((h m).trans (congrArg some (decide_eq_false hu)))
  | @step u v hu _ ih =>
    rcases htest u with h | h
    · exact .inl (putWhile?_of_none h)
    · have hloop : (fun m => u.putWhile? m c (test m)) =
          fun m => u.put? m c >>= (·.putWhile? m c (test m)) := funext fun m =>
        putWhile?_of_true ((h m).trans (congrArg some (decide_eq_true hu)))
      rw [hloop]
      exact (u.put?_exact c).bind ih

theorem padTo?_exact (column : Nat) : Exact (fun m => w.padTo? m column) (w.padTo column) := by
  obtain ⟨tabbed, spaced, htabs, hspaces, hpad⟩ := w.pads_padTo column
  have hfirst : Exact (fun m => w.padTabs? m column) tabbed := by
    unfold padTabs?
    split at htabs
    · next hc =>
      simp only [if_pos hc]
      exact htabs.exact fun u => (Exact.fit _).bind (.pure _)
    · next hc =>
      simp only [if_neg hc]
      exact htabs ▸ .pure _
  have hsecond : Exact (fun m =>
      tabbed.putWhile? m ' ' fun u => some (decide (u.position.virtualColumn < column))) spaced :=
    hspaces.exact fun _ => .pure _
  rw [hpad]
  exact hfirst.bind (hsecond.bind (.pure _))

theorem beginList?_exact : Exact (fun m => w.beginList? m) w.beginList := by
  unfold beginList? beginList
  cases w.alignment with
  | some column => exact .pure _
  | none => exact w.nextPosition?_exact.bind (.pure _)

theorem writeSeparator?_exact (separator : String) (threshold column : Nat) :
    Exact (fun m => w.writeSeparator? m separator threshold column)
      (w.writeSeparator separator threshold column) :=
  (Exact.fit _).bind <| .ite (fun _ => (w.write?_exact _).bind (.pure _)) fun _ =>
    (w.writeChars?_exact _).bind ((newline?_exact _).bind ((padTo?_exact _ _).bind (.pure _)))

end Writer

namespace WriterOp

theorem run?_exact (w : Writer) (op : WriterOp) : Exact (fun m => op.run? m w) (op.run w) := by
  cases op with
  | write text => exact (w.write?_exact text).map _
  | writeLine text => exact (w.writeLine?_exact text).map _
  | newline => exact w.newline?_exact.map _
  | blankLines count => exact (w.blankLines?_exact count).map _
  | space => exact (w.write?_exact " ").map _
  | indent => exact w.indent?_exact.map _
  | dedent | endList => exact .pure _
  | padTo column => exact (w.padTo?_exact column).map _
  | beginList => exact w.beginList?_exact.map _
  | separator text threshold column => exact (w.writeSeparator?_exact text threshold column).map _

theorem runAll?_exact (w : Writer) (ops : List WriterOp) :
    Exact (fun m => runAll? m w ops) (runAll w ops) := by
  induction ops generalizing w with
  | nil => exact .pure _
  | cons op ops ih => exact ((op.run?_exact w).map (·.1)).bind (ih _)

end WriterOp

/-! ### Documents -/

namespace Pass

variable {p : Pass}

theorem mapWriter?_exact {f : Machine → Writer → Option Writer} {g : Writer → Writer}
    (h : Exact (fun m => f m p.writer) (g p.writer)) :
    Exact (fun m => p.mapWriter? (f m)) (p.mapWriter g) := h.bind (.pure _)

theorem enter?_exact (key : NodeKey) : Exact (fun m => p.enter? m key) (p.enter key) :=
  p.writer.nextPosition?_exact.bind (.pure _)

end Pass

namespace Doc

theorem run?_exact (options : Options) (d : Doc) (column : Nat) (p : Pass) :
    Exact (fun m => d.run? m options column p) (d.run options column p) := by
  induction d generalizing column p with
  | empty | malformed => exact .pure _
  | append first second ih ih' =>
    refine (ih column p).bind ?_
    simp only [run, Outcome.andThen]
    cases (first.run options column p).failure with
    | none => exact ih' column _
    | some e => exact .pure _
  | text s => exact (Pass.mapWriter?_exact (Writer.write?_exact _ s)).map _
  | newline => exact (Pass.mapWriter?_exact (Writer.newline?_exact _)).map _
  | lineStart => exact (Pass.mapWriter?_exact (Writer.ensureLineStart?_exact _)).map _
  | typeGap => exact (Pass.mapWriter?_exact (Writer.blankLines?_exact _ _)).map _
  | nested body ih =>
    exact (Pass.mapWriter?_exact (Writer.indent?_exact _)).bind ((ih _ _).bind (.pure _))
  | aligned body ih => exact (Writer.beginList?_exact _).bind ((ih _ _).bind (.pure _))
  | separator s =>
    refine Exact.map (Pass.mapWriter?_exact (g := fun w =>
      (w.writeSeparator s options.wrapColumn column).1) ?_) _
    exact (Writer.writeSeparator?_exact _ s _ _).map (·.1)
  | node key body ih => exact (Pass.enter?_exact key).bind ((ih _ _).bind (.pure _))
  | synthetic key body ih => exact (ih _ _).bind (.pure _)
  | inside scope body ih => exact (ih _ _).bind (.pure _)
  | perScope body ih => exact ih _ _ _
  | unsupported gap remark ih => exact .ite (fun _ => .pure _) fun _ => ih _ _

theorem render?_exact (d : Doc) (options : Options) :
    Exact (fun m => d.render? m options) (d.render options) := by
  refine (d.run?_exact options 0 (.initial options)).bind ?_
  rw [render_eq]
  cases (d.run options 0 (.initial options)).failure <;> exact .pure _

end Doc

/-! ### Scripts -/

namespace Script

theorem State.mapWriter?_exact {s : State} {f : Machine → Writer → Option Writer}
    {g : Writer → Writer} (h : Exact (fun m => f m s.pass.writer) (g s.pass.writer)) :
    Exact (fun m => s.mapWriter? (f m)) (s.mapWriter g) := (Pass.mapWriter?_exact h).bind (.pure _)

theorem State.write?_exact (around : Surroundings) (d : Doc) (s : State) :
    Exact (fun m => s.write? m around d) (s.write around d) :=
  (d.run?_exact around.options 0 s.pass).bind (.pure _)

mutual

theorem runStep?_exact (around : Surroundings) : ∀ (step : Step) (s : State),
    Exact (fun m => runStep? m around step s) (runStep around step s)
  | ⟨_, action⟩, s => (runAction?_exact around action s).bind (.pure _)

theorem runAction?_exact (around : Surroundings) : ∀ (action : Action) (s : State),
    Exact (fun m => runAction? m around action s) (runAction around action s)
  | .blankLines _, _ => State.mapWriter?_exact (Writer.blankLines?_exact _ _)
  | .indent, _ => State.mapWriter?_exact (Writer.indent?_exact _)
  | .dedent, _ => .pure _
  | .inScope scope steps, s => (runSteps?_exact around steps _).bind (.pure _)
  | .list separator items, s => by
    obtain ⟨after, hafter⟩ : ∃ after,
        runItems around separator s.pass.writer.beginList.2.1 true items s.begun = after := ⟨_, rfl⟩
    have hitems := runItems?_exact around separator s.pass.writer.beginList.2.1 true items s.begun
    have hrun : runAction around (.list separator items) s =
        match after.failure with
        | none => after.mapWriter (·.endList s.pass.writer.beginList.2.2)
        | some _ => after := hafter ▸ rfl
    rw [hafter] at hitems
    rw [hrun]
    refine (Writer.beginList?_exact _).bind (hitems.bind ?_)
    cases after.failure <;> exact .pure _
  | .write _, s | .writeLine _, s | .newline, s | .space, s | .lineStart, s | .identifier _, s
  | .qualified _, s | .verbatim _, s | .resolve .., s | .describe, s | .docComment _, s
  | .unsupported .., s | .malformed _, s | .braceInlineComment _, s | .braceLineComment _, s
  | .braceDocComment _, s | .braceCharacter .., s | .braceInteger .., s | .render .., s =>
    State.write?_exact around _ s

theorem runSteps?_exact (around : Surroundings) : ∀ (steps : List Step) (s : State),
    Exact (fun m => runSteps? m around steps s) (runSteps around steps s)
  | [], _ => .pure _
  | step :: more, s => by
    refine (runStep?_exact around step s).bind ?_
    simp only [runSteps]
    cases (runStep around step s).failure with
    | none => exact runSteps?_exact around more _
    | some e => exact .pure _

theorem runItems?_exact (around : Surroundings) (separator : String) (column : Nat)
    (first : Bool) : ∀ (items : List (List Step)) (s : State),
    Exact (fun m => runItems? m around separator column first items s)
      (runItems around separator column first items s)
  | [], _ => .pure _
  | item :: more, s => by
    simp only [runItems]
    obtain ⟨parted, hp⟩ : ∃ parted, parted = if first then s
        else s.mapWriter fun w =>
          (w.writeSeparator separator around.options.wrapColumn column).1 := ⟨_, rfl⟩
    have hparted : Exact (fun m => s.part? m around separator column first) parted := by
      rw [hp]
      exact .ite (fun _ => .pure _) fun _ => State.mapWriter?_exact
        ((Writer.writeSeparator?_exact _ separator around.options.wrapColumn column).map (·.1))
    rw [← hp]
    refine hparted.bind ((runSteps?_exact around item parted).bind ?_)
    cases (runSteps around item parted).failure with
    | none => exact runItems?_exact around separator column false more _
    | some e => exact .pure _

end

theorem runAll?_exact (around : Surroundings) (steps : List Step) (s : State) :
    Exact (fun m => runAll? m around steps s) (runAll around steps s) := by
  induction steps generalizing s with
  | nil => exact .pure _
  | cons step more ih => exact ((runStep?_exact around step s).map _).bind (ih _)

theorem run?_exact (around : Surroundings) (statement expression : NodeKey) (steps : List Step) :
    Exact (fun m => run? m around statement expression steps)
      (run around statement expression steps) :=
  (Pass.enter?_exact statement).bind <| (Pass.enter?_exact expression).bind <|
    (runAll?_exact around steps _).bind <|
      (Pass.mapWriter?_exact (Writer.writeLine?_exact _ ";")).bind <|
        (Pass.mapWriter?_exact (Writer.ensureLineStart?_exact _)).bind (.pure _)

end Script

/-! ### Requests -/

theorem Request.render?_exact (l : Language) (options : Options) (r : Request) :
    Exact (fun m => r.render? m l options) (r.render l options) := Doc.render?_exact _ _

/-- What the checked machine renders is what there is to render, and every machine renders it. -/
theorem Request.render?_of_checked {l : Language} {options : Options} {r : Request}
    {a : Except RenderError Rendering} (h : r.render? .checked l options = some a) :
    a = r.render l options ∧ ∀ m, r.render? m l options = some a := by
  obtain ⟨rfl, hall⟩ := (render?_exact l options r).eq_of_checked h
  exact ⟨rfl, hall⟩

end SourcePrinter
