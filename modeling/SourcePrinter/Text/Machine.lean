import SourcePrinter.Text.Writer

/-! The writer of a machine. A machine counts lines, columns and bytes in words, where the writer as
such has numbers of any size. A count that leaves its word aborts the machine or wraps around, and
so does every sum on the way to a decision. A text that grows past the longest one aborts it in any
case. The functions whose names end in a question mark are those of the machine: they give nothing
if it aborts. -/

namespace SourcePrinter

/-- What a machine does with a count that leaves its word. -/
inductive Machine where
  /-- It aborts. -/
  | checked
  /-- It goes on from zero. -/
  | wrapping
  deriving DecidableEq, Repr

namespace Machine

/-- A word holds the numbers below. -/
def words : Nat := UInt64.size

/-- The bytes of the longest text. -/
def longest : Nat := words / 2 - 1

/-- A count in its word. -/
def fit (m : Machine) (n : Nat) : Option Nat :=
  if n < words then some n
  else
    match m with
    | checked => none
    | wrapping => some (n % words)

end Machine

open Machine (longest)

/-- The position after one more character. -/
def Position.step? (m : Machine) (tabWidth : Nat) (p : Position) (c : Char) : Option Position :=
  if c = '\n' then do
    let line ← m.fit (p.line + 1)
    return ⟨line, 0, 0, p.offset + 1⟩
  else do
    let column ← m.fit (p.column + 1)
    let virtualColumn ← m.fit (p.virtualColumn + if c = '\t' then tabWidth else 1)
    return ⟨p.line, column, virtualColumn, p.offset + c.utf8Size⟩

/-- How often the character of the indentation stands at a level, and which one it is. -/
def Indentation.fill? (m : Machine) (i : Indentation) (level : Nat) : Option (Nat × Char) :=
  if i.useTabs then some (level, '\t')
  else do
    let spaces ← m.fit (level * i.width)
    return (spaces, ' ')

namespace Writer

variable (m : Machine)

/-- Adds one character to the text, whatever is due. -/
def put? (w : Writer) (c : Char) : Option Writer := do
  let position ← w.position.step? m w.indentation.width c
  if position.offset ≤ longest then return { w with text := w.text.push c, position } else none

def putMany? (w : Writer) (c : Char) : Nat → Option Writer
  | 0 => some w
  | n + 1 => do
    let w ← w.put? m c
    putMany? w c n

def newline? (w : Writer) : Option Writer := do
  let w ← w.put? m '\n'
  return { w with atLineStart := true }

/-- Writes the indentation of the line if it is still due. The indentation is first made as a text
of its own. -/
def settle? (w : Writer) : Option Writer :=
  if w.atLineStart then do
    let (count, c) ← w.indentation.fill? m w.level
    if count ≤ longest then
      let w ← w.putMany? m c count
      return { w with atLineStart := false }
    else none
  else some w

def writeChar? (w : Writer) (c : Char) : Option Writer :=
  if c = '\n' then w.newline? m
  else do
    let w ← w.settle? m
    w.put? m c

def writeChars? (w : Writer) (text : List Char) : Option Writer := text.foldlM (writeChar? m) w

def write? (w : Writer) (text : String) : Option Writer := w.writeChars? m text.toList

def writeLine? (w : Writer) (text : String) : Option Writer := do
  let w ← w.write? m text
  w.newline? m

def blankLines? (w : Writer) : Nat → Option Writer
  | 0 => some w
  | count + 1 => do
    let w ← w.newline? m
    blankLines? w count

def ensureLineStart? (w : Writer) : Option Writer :=
  if w.atLineStart then some w else w.newline? m

def indent? (w : Writer) : Option Writer := do
  let level ← m.fit (w.level + 1)
  return { w with level, alignment := none }

/-- The position of the next character other than a line feed. -/
def nextPosition? (w : Writer) : Option Position :=
  if w.atLineStart then do
    let columns ← m.fit (w.level * w.indentation.width)
    let count := if w.indentation.useTabs then w.level else columns
    let column ← m.fit (w.position.column + count)
    let virtualColumn ← m.fit (w.position.virtualColumn + columns)
    let offset ← m.fit (w.position.offset + count)
    return { w.position with column, virtualColumn, offset }
  else some w.position

variable {m} in
theorem offset_of_put? {w v : Writer} {c : Char} (h : w.put? m c = some v) :
    w.position.offset < v.position.offset ∧ v.position.offset ≤ longest := by
  obtain ⟨p, hp, hv⟩ := Option.bind_eq_some_iff.1 h
  have hoffset : w.position.offset < p.offset := by
    unfold Position.step? at hp
    split at hp
    · obtain ⟨_, _, hp⟩ := Option.bind_eq_some_iff.1 hp
      cases hp
      exact Nat.lt_succ_self _
    · obtain ⟨_, _, hp⟩ := Option.bind_eq_some_iff.1 hp
      obtain ⟨_, _, hp⟩ := Option.bind_eq_some_iff.1 hp
      cases hp
      exact Nat.lt_add_of_pos_right c.utf8Size_pos
  split at hv
  · next hlongest =>
    cases hv
    exact ⟨hoffset, hlongest⟩
  · cases hv

/-- Adds a character as long as a test says so. No loop is endless, for texts are not. -/
def putWhile? (c : Char) (test : Writer → Option Bool) (w : Writer) : Option Writer :=
  match test w with
  | none => none
  | some false => some w
  | some true =>
    match _ : w.put? m c with
    | none => none
    | some v => putWhile? c test v
termination_by longest - w.position.offset
decreasing_by
  have := offset_of_put? ‹_›
  omega

/-- A whole tab ends within the column. -/
def tabFits? (column : Nat) (w : Writer) : Option Bool := do
  let stop ← m.fit (w.position.virtualColumn + w.indentation.width)
  return decide (stop ≤ column)

/-- Pads the line with tabs as far as they fit, if tabs are in use. -/
def padTabs? (w : Writer) (column : Nat) : Option Writer :=
  if w.indentation.useTabs ∧ 0 < w.indentation.width then w.putWhile? m '\t' (tabFits? m column)
  else some w

/-- Pads the line to a virtual column. -/
def padTo? (w : Writer) (column : Nat) : Option Writer := do
  let tabbed ← w.padTabs? m column
  let padded ← tabbed.putWhile? m ' ' fun w => some (decide (w.position.virtualColumn < column))
  return { padded with atLineStart := false }

/-- Starts a list, or joins the one in progress. -/
def beginList? (w : Writer) : Option (Writer × Nat × Bool) :=
  match w.alignment with
  | some column => some (w, column, false)
  | none => do
    let next ← w.nextPosition? m
    return ({ w with alignment := some next.virtualColumn }, next.virtualColumn, true)

/-- Writes a separator of a list. -/
def writeSeparator? (w : Writer) (separator : String) (threshold column : Nat) :
    Option (Writer × Bool) := do
  let stop ← m.fit (w.position.virtualColumn + separator.length)
  if stop ≤ threshold then
    let w ← w.write? m separator
    return (w, false)
  else
    let w ← w.writeChars? m (trimEnd separator.toList)
    let w ← w.newline? m
    let w ← w.padTo? m column
    return (w, true)

end Writer

namespace WriterOp

variable (m : Machine)

def run? (w : Writer) : WriterOp → Option (Writer × WriterAnswer)
  | .write text => (w.write? m text).map (·, .nothing)
  | .writeLine text => (w.writeLine? m text).map (·, .nothing)
  | .newline => (w.newline? m).map (·, .nothing)
  | .blankLines count => (w.blankLines? m count).map (·, .nothing)
  | .space => (w.write? m " ").map (·, .nothing)
  | .indent => (w.indent? m).map (·, .nothing)
  | .dedent => some (w.dedent, .nothing)
  | .padTo column => (w.padTo? m column).map (·, .nothing)
  | .beginList => (w.beginList? m).map fun (w, column, owned) => (w, .list column owned)
  | .endList owned => some (w.endList owned, .nothing)
  | .separator text threshold column =>
    (w.writeSeparator? m text threshold column).map fun (w, value) => (w, .broken value)

/-- The writer after a sequence of operations. -/
def runAll? (w : Writer) (ops : List WriterOp) : Option Writer :=
  ops.foldlM (fun w op => (op.run? m w).map (·.1)) w

/-- The writer, its next position and the answer after each operation of a sequence. -/
def trace? (w : Writer) : List WriterOp → Option (List (Writer × Position × WriterAnswer))
  | [] => some []
  | op :: ops => do
    let (w, answer) ← op.run? m w
    let next ← w.nextPosition? m
    let more ← trace? w ops
    return (w, next, answer) :: more

end WriterOp

end SourcePrinter
