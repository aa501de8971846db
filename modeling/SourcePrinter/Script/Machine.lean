import SourcePrinter.Script

/-! Scripts on a machine, which may abort. -/

namespace SourcePrinter

namespace Script

variable (m : Machine)

namespace State

def mapWriter? (s : State) (f : Writer → Option Writer) : Option State := do
  let pass ← s.pass.mapWriter? f
  return { s with pass }

def write? (s : State) (around : Surroundings) (d : Doc) : Option State := do
  let o ← d.write? m around.options s.pass
  return { s with pass := o.pass, failure := o.failure }

/-- Writes the separator before an item of a list that is not the first. -/
def part? (around : Surroundings) (separator : String) (column : Nat) (first : Bool) (s : State) :
    Option State :=
  if first then some s
  else
    s.mapWriter? fun w =>
      (w.writeSeparator? m separator around.options.wrapColumn column).map (·.1)

end State

mutual

/-- Runs a step and notes the state after it. -/
def runStep? (around : Surroundings) : Step → State → Option State
  | ⟨label, action⟩, s => do
    let s ← runAction? around action s
    return s.note label (actionValue around action)

def runAction? (around : Surroundings) : Action → State → Option State
  | .blankLines count, s => s.mapWriter? (·.blankLines? m count)
  | .indent, s => s.mapWriter? (·.indent? m)
  | .dedent, s => some (s.mapWriter (·.dedent))
  | .inScope scope steps, s => do
    let s ← runSteps? around steps { s with pass := s.pass.pushScope scope }
    return { s with pass := s.pass.popScope }
  | .list separator items, s => do
    let (writer, column, owned) ← s.pass.writer.beginList? m
    let s ← runItems? around separator column true items { s with pass := { s.pass with writer } }
    match s.failure with
    | none => return s.mapWriter (·.endList owned)
    | some _ => return s
  | action, s => s.write? m around (actionDoc around action)

/-- Runs steps up to the first that fails. -/
def runSteps? (around : Surroundings) : List Step → State → Option State
  | [], s => some s
  | step :: more, s => do
    let s ← runStep? around step s
    match s.failure with
    | none => runSteps? around more s
    | some _ => return s

/-- Runs the items of a list up to the first that fails, each but the first after a separator. -/
def runItems? (around : Surroundings) (separator : String) (column : Nat) (first : Bool) :
    List (List Step) → State → Option State
  | [], s => some s
  | item :: more, s => do
    let parted ← s.part? m around separator column first
    let s ← runSteps? around item parted
    match s.failure with
    | none => runItems? around separator column false more s
    | some _ => return s

end

/-- Runs every step; one that fails does not end the script. -/
def runAll? (around : Surroundings) (steps : List Step) (s : State) : Option State :=
  steps.foldlM (fun s step => (runStep? m around step s).map ({ · with failure := none })) s

/-- Runs a script as the expression of a statement. -/
def run? (around : Surroundings) (statement expression : NodeKey) (steps : List Step) :
    Option Result := do
  let (outer, p) ← (Pass.initial around.options).enter? m statement
  let (inner, p) ← p.enter? m expression
  let s ← runAll? m around steps ⟨p, [], none⟩
  let p ← (s.pass.leave inner false).mapWriter? (·.writeLine? m ";")
  let p ← (p.leave outer false).mapWriter? (·.ensureLineStart? m)
  return ⟨s.trace.reverse, p.writer.text, p.spans⟩

end Script

end SourcePrinter
