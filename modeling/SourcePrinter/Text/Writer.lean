import SourcePrinter.Text.Position
import SourcePrinter.Text.Blank

/-! The writer: a text under construction, the position of its end, the indentation that is still
due on the current line, and the column to which a list in progress breaks. Indentation is written
late, just before the first character of a line, so an empty line stays empty.

Counts, columns and the width of a tab are of any size here. What a machine makes of them, whose
words hold the numbers below `2 ^ 64`, is a writer of its own; where nothing leaves a word the two
are the same (`Writer.padTo?_exact` and its like), and operations in range leave none
(`WriterOp.runAll?_inRange`). -/

namespace SourcePrinter

/-- How a level of indentation looks, and how wide a tab counts, which may be more than any text is
long. -/
structure Indentation where
  useTabs : Bool
  width : Nat
  deriving DecidableEq, Repr

namespace Indentation

/-- The characters of one level repeated `level` times: how many, and which. -/
def fill (i : Indentation) (level : Nat) : Nat × Char :=
  if i.useTabs then (level, '\t') else (level * i.width, ' ')

end Indentation

/-- A text under construction. -/
structure Writer where
  /-- Look of the indentation. -/
  indentation : Indentation
  /-- What has been written. -/
  text : String
  /-- The position at the end of `text`. -/
  position : Position
  /-- Levels of indentation of the lines to come. -/
  level : Nat
  /-- Whether the indentation of the current line is still due. -/
  atLineStart : Bool
  /-- The virtual column that a list in progress started at. -/
  alignment : Option Nat
  deriving DecidableEq, Repr

namespace Writer

/-- A writer that has written nothing. -/
def new (indentation : Indentation) : Writer :=
  { indentation, text := "", position := .origin, level := 0, atLineStart := true,
    alignment := none }

/-- Adds one character to the text, whatever is due. -/
def put (w : Writer) (c : Char) : Writer :=
  { w with text := w.text.push c, position := w.position.step w.indentation.width c }

def putMany (w : Writer) (c : Char) : Nat → Writer
  | 0 => w
  | n + 1 => putMany (w.put c) c n

def newline (w : Writer) : Writer :=
  { w.put '\n' with atLineStart := true }

/-- Writes the indentation of the line if it is still due. -/
def settle (w : Writer) : Writer :=
  if w.atLineStart then
    let (count, c) := w.indentation.fill w.level
    { w.putMany c count with atLineStart := false }
  else w

/-- Writes one character: a line feed ends the line, any other settles the indentation first. -/
def writeChar (w : Writer) (c : Char) : Writer :=
  if c = '\n' then w.newline else w.settle.put c

def writeChars (w : Writer) (text : List Char) : Writer :=
  text.foldl writeChar w

/-- Writes a text; line feeds in it start new lines. -/
def write (w : Writer) (text : String) : Writer :=
  w.writeChars text.toList

def writeLine (w : Writer) (text : String) : Writer :=
  (w.write text).newline

def blankLines (w : Writer) : Nat → Writer
  | 0 => w
  | count + 1 => blankLines w.newline count

def space (w : Writer) : Writer := w.write " "

/-- Ends the line unless nothing stands on it. -/
def ensureLineStart (w : Writer) : Writer :=
  if w.atLineStart then w else w.newline

/-- One level of indentation more; a list in progress loses its column. -/
def indent (w : Writer) : Writer :=
  { w with level := w.level + 1, alignment := none }

/-- One level of indentation less, never below zero; a list in progress loses its column. -/
def dedent (w : Writer) : Writer :=
  { w with level := w.level - 1, alignment := none }

/-- The position of the next character other than a line feed: the indentation still due counts as
written. On a machine it may be past the last number of a word (`nextPosition?`). -/
def nextPosition (w : Writer) : Position :=
  if w.atLineStart then
    let (count, c) := w.indentation.fill w.level
    let columns := if c = '\t' then count * w.indentation.width else count
    { w.position with
      column := w.position.column + count
      virtualColumn := w.position.virtualColumn + columns
      offset := w.position.offset + count }
  else w.position

/-- Pads the line to a virtual column, with tabs as far as they fit when tabs are in use. The
padding stands in place of the indentation of the line. The loops of a machine that come to this
need not end where a tab is about as wide as a word (`padTo?`). -/
def padTo (w : Writer) (column : Nat) : Writer :=
  let tabs :=
    if w.indentation.useTabs ∧ 0 < w.indentation.width then
      (column - w.position.virtualColumn) / w.indentation.width
    else 0
  let tabbed := w.putMany '\t' tabs
  { tabbed.putMany ' ' (column - tabbed.position.virtualColumn) with atLineStart := false }

/-- Starts a list, or joins the one in progress. Gives the column to break to, and whether this
call started the list and so has to end it. -/
def beginList (w : Writer) : Writer × Nat × Bool :=
  match w.alignment with
  | some column => (w, column, false)
  | none =>
    let column := w.nextPosition.virtualColumn
    ({ w with alignment := some column }, column, true)

/-- Ends the list if the caller started it. -/
def endList (w : Writer) (owned : Bool) : Writer :=
  if owned then { w with alignment := none } else w

/-- Writes a separator of a list. If it would end past `threshold`, the white space at its end is
dropped, the line ends, and the next one is padded to `column`; the answer says so. -/
def writeSeparator (w : Writer) (separator : String) (threshold column : Nat) : Writer × Bool :=
  if w.position.virtualColumn + separator.length ≤ threshold then (w.write separator, false)
  else (((w.writeChars (trimEnd separator.toList)).newline).padTo column, true)

/-! ### Small facts -/

@[simp] theorem writeChars_nil (w : Writer) : w.writeChars [] = w := rfl

@[simp] theorem writeChars_cons (w : Writer) (c : Char) (text : List Char) :
    w.writeChars (c :: text) = (w.writeChar c).writeChars text := rfl

@[simp] theorem writeChars_append (w : Writer) (s t : List Char) :
    w.writeChars (s ++ t) = (w.writeChars s).writeChars t := by
  simp [writeChars]

@[simp] theorem write_empty (w : Writer) : w.write "" = w := rfl

end Writer

/-- The operations on a writer. -/
inductive WriterOp where
  | write (text : String)
  | writeLine (text : String)
  | newline
  | blankLines (count : Nat)
  | space
  | indent
  | dedent
  | padTo (column : Nat)
  | beginList
  | endList (owned : Bool)
  | separator (text : String) (threshold column : Nat)
  deriving DecidableEq, Repr

/-- What an operation answers besides the new writer. -/
inductive WriterAnswer where
  | nothing
  | list (column : Nat) (owned : Bool)
  | broken (value : Bool)
  deriving DecidableEq, Repr

namespace WriterOp

def run (w : Writer) : WriterOp → Writer × WriterAnswer
  | .write text => (w.write text, .nothing)
  | .writeLine text => (w.writeLine text, .nothing)
  | .newline => (w.newline, .nothing)
  | .blankLines count => (w.blankLines count, .nothing)
  | .space => (w.space, .nothing)
  | .indent => (w.indent, .nothing)
  | .dedent => (w.dedent, .nothing)
  | .padTo column => (w.padTo column, .nothing)
  | .beginList => let (w', column, owned) := w.beginList; (w', .list column owned)
  | .endList owned => (w.endList owned, .nothing)
  | .separator text threshold column =>
    let (w', value) := w.writeSeparator text threshold column
    (w', .broken value)

/-- The writer after a sequence of operations. -/
def runAll (w : Writer) (ops : List WriterOp) : Writer :=
  ops.foldl (fun w op => (op.run w).1) w

/-- The writer and the answer after each operation of a sequence. -/
def trace (w : Writer) : List WriterOp → List (Writer × WriterAnswer)
  | [] => []
  | op :: ops => let step := op.run w; step :: trace step.1 ops

end WriterOp

end SourcePrinter
