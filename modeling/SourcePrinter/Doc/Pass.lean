import SourcePrinter.Doc.Basic
import SourcePrinter.Text.Writer
import SourcePrinter.Options

/-! The state of a rendering: the writer, the spans kept so far, and what surrounds the place that
is being written. A node is entered before its parts are written and left afterwards; leaving it
keeps its span. -/

namespace SourcePrinter

/-- The spans of nodes, one for each. -/
structure SpanTable where
  entries : List (NodeKey × Span)

namespace SpanTable

def empty : SpanTable := ⟨[]⟩

def get? (t : SpanTable) (key : NodeKey) : Option Span :=
  (t.entries.find? fun entry => entry.1 == key).map Prod.snd

/-- Keeps the span of a node, in place of an earlier one. -/
def insert (t : SpanTable) (key : NodeKey) (span : Span) : SpanTable :=
  ⟨(key, span) :: t.entries.filter fun entry => entry.1 != key⟩

def size (t : SpanTable) : Nat := t.entries.length

@[simp] theorem get?_empty (key : NodeKey) : empty.get? key = none := rfl

@[simp] theorem get?_insert_self (t : SpanTable) (key : NodeKey) (span : Span) :
    (t.insert key span).get? key = some span := by
  simp [get?, insert]

theorem get?_insert_of_ne (t : SpanTable) {key other : NodeKey} (span : Span) (h : other ≠ key) :
    (t.insert key span).get? other = t.get? other := by
  simp only [get?, insert, List.find?_cons, beq_eq_false_iff_ne.2 (Ne.symm h)]
  rw [List.find?_filter]
  congr 2
  funext entry
  by_cases he : entry.1 = other <;> simp [he, h]

end SpanTable

/-- The state of a rendering. -/
structure Pass where
  writer : Writer
  spans : SpanTable
  /-- The nodes that are rendered without spans. -/
  synthetic : List NodeKey
  /-- Spans are kept. -/
  recording : Bool
  /-- The earliest start of the nodes finished inside the one being rendered. -/
  floor : Option Position
  /-- The types that surround the place, the innermost first. -/
  scopes : List TypeScope

/-- What is remembered of a node while its parts are rendered. -/
structure Visit where
  key : NodeKey
  /-- The position at which the node was entered. -/
  before : Position
  /-- The same, the indentation still due counted as written. -/
  pending : Position
  recording : Bool
  /-- The node is synthetic. -/
  suspended : Bool
  floor : Option Position

namespace Pass

/-- The state before anything is written. -/
def initial (options : Options) : Pass :=
  { writer := .new options.indentation, spans := .empty, synthetic := [], recording := true,
    floor := none, scopes := [] }

/-- The innermost type. -/
def scope (p : Pass) : Option TypeScope := p.scopes.head?

def mapWriter (p : Pass) (f : Writer → Writer) : Pass := { p with writer := f p.writer }

def enter (p : Pass) (key : NodeKey) : Visit × Pass :=
  let suspended := p.synthetic.contains key
  ({ key, before := p.writer.position, pending := p.writer.nextPosition, recording := p.recording,
     suspended, floor := p.floor },
    { p with recording := p.recording && !suspended, floor := none })

/-- The span of a node that ends now. A node that wrote nothing is empty where it was entered; any
other starts where its first character would go, or where the first node in it starts. -/
def spanOf (p : Pass) (v : Visit) : Span :=
  let after := p.writer.position
  if after = v.before then ⟨v.before, v.before⟩
  else
    let start :=
      match p.floor with
      | some floor => Position.min floor v.pending
      | none => v.pending
    ⟨start, Position.max after start⟩

/-- Leaves a node; its span is kept unless it failed or spans are suspended. -/
def leave (p : Pass) (v : Visit) (failed : Bool) : Pass :=
  let span := p.spanOf v
  let floor :=
    match v.floor with
    | some floor => Position.min floor span.start
    | none => span.start
  { p with
    recording := v.recording
    floor := some floor
    spans := if !failed && v.recording && !v.suspended then p.spans.insert v.key span else p.spans }

/-- Marks a node as synthetic. -/
def markSynthetic (p : Pass) (key : NodeKey) : Pass :=
  if p.synthetic.contains key then p else { p with synthetic := key :: p.synthetic }

/-- Takes the mark off unless the node had it before. -/
def unmarkSynthetic (p : Pass) (key : NodeKey) (before : Bool) : Pass :=
  if before then p else { p with synthetic := p.synthetic.erase key }

def pushScope (p : Pass) (scope : TypeScope) : Pass := { p with scopes := scope :: p.scopes }

def popScope (p : Pass) : Pass := { p with scopes := p.scopes.tail }

end Pass

/-- The state at the end of a rendering, and the error that ended it if one did. -/
structure Outcome where
  pass : Pass
  failure : Option RenderError

namespace Outcome

def done (p : Pass) : Outcome := ⟨p, none⟩

/-- Goes on from an end without an error. -/
def andThen (o : Outcome) (f : Pass → Outcome) : Outcome :=
  match o.failure with
  | none => f o.pass
  | some _ => o

def mapPass (o : Outcome) (f : Pass → Pass) : Outcome := { o with pass := f o.pass }

/-- Changes the state after an end without an error. -/
def onDone (o : Outcome) (f : Pass → Pass) : Outcome :=
  match o.failure with
  | none => ⟨f o.pass, none⟩
  | some _ => o

end Outcome

end SourcePrinter
