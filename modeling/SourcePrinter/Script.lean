import SourcePrinter.Doc.Machine
import SourcePrinter.Language.Brace
import SourcePrinter.Language.Document

/-! Scripts: steps that write one after the other in place of an expression, with a trace of the
state after each. A step that fails ends the steps around it, but not the script. -/

namespace SourcePrinter

/-- A tree that a step renders. -/
inductive Subject where
  | expression (e : Expression)
  | statement (s : Statement)
  | typeReference (t : TypeRef)
  | definition (t : TypeDefinition)
  | member (m : Member)
  | parameter (p : Parameter)
  | importing (i : Import)
  | unit (u : CodeUnit)

namespace Subject

/-- The key of the tree's root; an import has none. -/
def key? : Subject → Option NodeKey
  | .expression e => some e.key
  | .statement s => some s.key
  | .typeReference t => some t.key
  | .definition t => some t.key
  | .member m => some m.key
  | .parameter p => some p.key
  | .importing _ => none
  | .unit u => some u.key

end Subject

/-- How a step renders a tree. -/
structure Manner where
  /-- No spans are kept for the tree. -/
  synthetic : Bool
  /-- A statement is rendered as the body of another. -/
  asBody : Bool
  /-- A type reference is rendered with another nullability. -/
  nullability : Option Nullability
  deriving DecidableEq, Repr

namespace Subject

/-- The document of the tree as such. -/
def treeDoc (l : Language) (setting : Setting) (manner : Manner) : Subject → Doc
  | .expression e => l.expressionDoc setting e
  | .statement s => if manner.asBody then l.bodyDoc setting s else l.statementDoc setting s
  | .typeReference t =>
    match manner.nullability with
    | some n => l.typeDocAs setting n t
    | none => l.typeDoc setting t
  | .definition t => l.definitionDoc setting t
  | .member m => l.memberDoc setting m
  | .parameter p => l.parameterDoc setting p
  | .importing i => l.importTree setting i
  | .unit u => l.unitDoc setting u

def document (l : Language) (setting : Setting) (manner : Manner) (s : Subject) : Doc :=
  match manner.synthetic, s.key? with
  | true, some key => .synthetic key (s.treeDoc l setting manner)
  | _, _ => s.treeDoc l setting manner

end Subject

mutual

/-- A step of a script; its label is repeated in the trace. -/
structure Step where
  label : String
  action : Action

inductive Action where
  | write (s : String)
  | writeLine (s : String)
  | newline
  | space
  | blankLines (count : Nat)
  | indent
  | dedent
  | lineStart
  | identifier (s : String)
  | qualified (s : String)
  | verbatim (s : String)
  /-- The spelling of a name, which is not written. -/
  | resolve (s : String) (spelling : Spelling) (qualification : Qualification)
  /-- The name of the language and the size of a tab. -/
  | describe
  | docComment (s : String)
  | unsupported (construct : String) (detail : Option String)
  | malformed (detail : String)
  | inScope (scope : TypeScope) (steps : List Step)
  | list (separator : String) (items : List (List Step))
  | braceInlineComment (s : String)
  | braceLineComment (s : String)
  | braceDocComment (s : String)
  | braceCharacter (value quote : Char) (style : UnicodeEscape)
  | braceInteger (value : Int) (base : Nat) (marks : List (Nat × String))
  | render (subject : Subject) (manner : Manner)

end

/-- What a step answers. -/
inductive StepValue where
  | name (s : String)
  | description (language : String) (tabSize : Nat)
  deriving DecidableEq, Repr

/-- The state after a step. -/
structure TraceEntry where
  label : String
  position : Position
  atLineStart : Bool
  scope : Option TypeScope
  value : Option StepValue
  failure : Option RenderError

/-- The separator of lists that name none. -/
def listSeparator : String := ", "

namespace Script

/-- What the steps of a script are run in. -/
structure Surroundings where
  language : Language
  options : Options
  unit : Option CodeUnit

namespace Surroundings

/-- The settings of the rendering. -/
def setting (s : Surroundings) : Setting := .of s.options s.unit false

/-- The context without parts. -/
def context (s : Surroundings) : Context := s.language.context s.setting 0

end Surroundings

/-- The state of a running script; the trace has the newest entry first. -/
structure State where
  pass : Pass
  trace : List TraceEntry
  failure : Option RenderError

namespace State

def mapWriter (s : State) (f : Writer → Writer) : State :=
  { s with pass := s.pass.mapWriter f }

def write (s : State) (around : Surroundings) (d : Doc) : State :=
  let o := d.write around.options s.pass
  { s with pass := o.pass, failure := o.failure }

/-- Adds an entry to the trace. -/
def note (s : State) (label : String) (value : Option StepValue) : State :=
  let p := s.pass
  { s with
    trace :=
      ⟨label, p.writer.position, p.writer.atLineStart, p.scope, value, s.failure⟩ :: s.trace }

end State

/-- The document of an action that only writes. -/
def actionDoc (around : Surroundings) : Action → Doc
  | .write s => .text s
  | .writeLine s => Doc.line s
  | .newline => .newline
  | .space => .text " "
  | .lineStart => .lineStart
  | .identifier s => around.context.identifier s
  | .qualified s => around.context.qualified s
  | .verbatim s => around.context.verbatim s
  | .docComment s => around.language.docComment (.ofText s)
  | .unsupported construct detail => around.context.unsupported construct detail
  | .malformed detail => .malformed detail
  | .braceInlineComment s => Brace.inlineComment s
  | .braceLineComment s => Brace.lineComment s
  | .braceDocComment s => Brace.docLines (textLines s)
  | .braceCharacter value quote style => Brace.characterLiteral around.context quote style value
  | .braceInteger value base marks =>
    Brace.integerLiteral around.context (fun b => marks.lookup b) value base
  | .render subject manner => subject.document around.language around.setting manner
  | .blankLines _ | .indent | .dedent | .resolve .. | .describe | .inScope .. | .list .. => .empty

def actionValue (around : Surroundings) : Action → Option StepValue
  | .resolve s spelling qualification =>
    some (.name (around.context.naming.resolve spelling qualification s))
  | .describe => some (.description around.language.hooks.name around.options.tabSize)
  | _ => none

mutual

/-- Runs a step and notes the state after it. -/
def runStep (around : Surroundings) : Step → State → State
  | ⟨label, action⟩, s => (runAction around action s).note label (actionValue around action)

def runAction (around : Surroundings) : Action → State → State
  | .blankLines count, s => s.mapWriter (·.blankLines count)
  | .indent, s => s.mapWriter (·.indent)
  | .dedent, s => s.mapWriter (·.dedent)
  | .inScope scope steps, s =>
    let s := runSteps around steps { s with pass := s.pass.pushScope scope }
    { s with pass := s.pass.popScope }
  | .list separator items, s =>
    let (writer, column, owned) := s.pass.writer.beginList
    let s := runItems around separator column true items
      { s with pass := { s.pass with writer } }
    match s.failure with
    | none => s.mapWriter (·.endList owned)
    | some _ => s
  | action, s => s.write around (actionDoc around action)

/-- Runs steps up to the first that fails. -/
def runSteps (around : Surroundings) : List Step → State → State
  | [], s => s
  | step :: more, s =>
    let s := runStep around step s
    match s.failure with
    | none => runSteps around more s
    | some _ => s

/-- Runs the items of a list up to the first that fails, each but the first after a separator. -/
def runItems (around : Surroundings) (separator : String) (column : Nat) (first : Bool) :
    List (List Step) → State → State
  | [], s => s
  | item :: more, s =>
    let parted :=
      if first then s
      else
        s.mapWriter fun w => (w.writeSeparator separator around.options.wrapColumn column).1
    let s := runSteps around item parted
    match s.failure with
    | none => runItems around separator column false more s
    | some _ => s

end

/-- Runs every step; one that fails does not end the script. -/
def runAll (around : Surroundings) (steps : List Step) (s : State) : State :=
  steps.foldl (fun s step => { runStep around step s with failure := none }) s

/-- The end of a script: trace, text and spans. -/
structure Result where
  trace : List TraceEntry
  text : String
  spans : SpanTable

/-- Runs a script as the expression of a statement. -/
def run (around : Surroundings) (statement expression : NodeKey) (steps : List Step) : Result :=
  let (outer, p) := (Pass.initial around.options).enter statement
  let (inner, p) := p.enter expression
  let s := runAll around steps ⟨p, [], none⟩
  let p := (s.pass.leave inner false).mapWriter (·.writeLine ";")
  let p := (p.leave outer false).mapWriter (·.ensureLineStart)
  ⟨s.trace.reverse, p.writer.text, p.spans⟩

end Script

end SourcePrinter
