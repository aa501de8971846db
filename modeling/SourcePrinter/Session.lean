import SourcePrinter.Doc.Machine
import SourcePrinter.Language.Document

/-! Rendering trees: a request names a tree and how to render it, and a session answers requests one
after the other on one machine and in one language, under options that may change in between. -/

namespace SourcePrinter

/-- What a rendering gives: the text, and the span of every node that was written. -/
structure Rendering where
  text : String
  spans : SpanTable

namespace Doc

/-- Writes a document as a text of its own. -/
def render (d : Doc) (options : Options) : Except RenderError Rendering :=
  let o := d.write options (.initial options)
  match o.failure with
  | none => .ok ⟨o.pass.writer.text, o.pass.spans⟩
  | some e => .error e

/-- Writes a document as a text of its own on a machine. -/
def render? (m : Machine) (d : Doc) (options : Options) :
    Option (Except RenderError Rendering) := do
  let o ← d.write? m options (.initial options)
  match o.failure with
  | none => return .ok ⟨o.pass.writer.text, o.pass.spans⟩
  | some e => return .error e

end Doc

/-- A tree to render. -/
inductive Request where
  | unit (unit : CodeUnit) (definitionOnly : Bool)
  | definition (type : TypeDefinition) (unit : Option CodeUnit) (definitionOnly : Bool)
  /-- A member, perhaps as one of the type that declares it. -/
  | member (member : Member) (owner : Option TypeDefinition) (unit : Option CodeUnit)
      (definitionOnly : Bool)
  | parameter (parameter : Parameter) (unit : Option CodeUnit)
  | statement (statement : Statement) (unit : Option CodeUnit)
  | statementText (statement : Statement)
  | expressionText (expression : Expression)

namespace Request

/-- The document to write. -/
def document (l : Language) (options : Options) : Request → Doc
  | .unit u definitionOnly => l.unitDoc (.of options (some u) definitionOnly) u
  | .definition t home definitionOnly => l.definitionDoc (.of options home definitionOnly) t
  | .member m owner home definitionOnly =>
    let doc := l.memberDoc (.of options home definitionOnly) m
    match owner with
    | some t => .inside (.of t) doc
    | none => doc
  | .parameter p home => l.parameterDoc (.of options home false) p
  | .statement s home => l.statementDoc (.of options home false) s
  | .statementText s => l.statementDoc (.of options none false) s
  | .expressionText e => l.expressionDoc (.of options none false) e

/-- Renders the tree, with counts of any size. -/
def render (l : Language) (options : Options) (r : Request) : Except RenderError Rendering :=
  (r.document l options).render options

/-- Renders the tree on a machine. What the checked machine gives is what `render` gives
(`render?_of_checked`); in range it does give it (`render?_inRange`). -/
def render? (m : Machine) (l : Language) (options : Options) (r : Request) :
    Option (Except RenderError Rendering) :=
  (r.document l options).render? m options

end Request

/-- The answer to a request. -/
inductive Reply where
  | rendering (rendering : Rendering)
  /-- A statement that writes nothing. -/
  | nothing
  | text (text : String)

/-- Whether the last rendering of a session came to its end. -/
inductive PassState where
  | idle
  | done
  deriving DecidableEq, Repr

/-- Renderings on one machine and in one language. -/
structure Session where
  machine : Machine
  language : Language
  options : Options
  state : PassState

namespace Session

/-- The session before its first request. -/
def start (machine : Machine) (language : Language) (options : Options) : Session :=
  ⟨machine, language, options, .idle⟩

/-- Changes options. -/
def configure (s : Session) (changes : List OptionChange) : Session :=
  { s with options := changes.foldl Options.set s.options }

/-- How a rendering answers a request. -/
def reply (r : Request) (rendering : Rendering) : Reply :=
  match r with
  | .statement .. => if rendering.text.isEmpty then .nothing else .rendering rendering
  | .statementText _ | .expressionText _ => .text rendering.text
  | _ => .rendering rendering

/-- Answers a request, unless the machine aborts. -/
def perform? (s : Session) (r : Request) : Option (Except RenderError Reply × Session) := do
  match ← r.render? s.machine s.language s.options with
  | .ok rendering => return (.ok (reply r rendering), { s with state := .done })
  | .error e => return (.error e, { s with state := .idle })

end Session

end SourcePrinter
