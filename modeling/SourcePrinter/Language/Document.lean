import SourcePrinter.Language.Rules
import SourcePrinter.Syntax.Size

/-! The document of each kind of node in a language. The node's rule writes its parts through a
context; the context of depth `n + 1` writes a part by its rule with the context of depth `n`, so a
depth of the node's size reaches every part. -/

namespace SourcePrinter

open Doc

namespace Language

variable (l : Language)

/-- What stands between a compile-time condition and its end. -/
def guarded (c : Context) (condition : Option Expression) (body : Doc) : Doc :=
  match condition with
  | none => body
  | some e =>
    lineStart ++ l.units.conditionStart c e ++ lineStart ++ body ++ lineStart ++
      l.units.conditionEnd c ++ lineStart

/-- The rule for an expression. Integers have one of four bases, and a dictionary has as many
values as keys. -/
def expressionRule (c : Context) (e : Expression) : Doc :=
  let r := l.expressions
  match e.form with
  | .nil => r.nil c
  | .boolean value => r.boolean c value
  | .integer value base =>
    if base = 2 ∨ base = 8 ∨ base = 10 ∨ base = 16 then r.integer c value base
    else malformed ("integer literal in unsupported base " ++ toString base)
  | .float value => r.float c value
  | .string value => r.string c value
  | .character value => r.character c value
  | .array elements elementType => r.array c elements elementType
  | .dictionary literal =>
    if literal.keys.length = literal.values.length then r.dictionary c literal
    else
      malformed ("dictionary literal has " ++ toString literal.keys.length ++ " keys but " ++
        toString literal.values.length ++ " values")
  | .tuple members => r.tuple c members
  | .selfReference => r.selfReference c
  | .inherited => r.inherited c
  | .result => c.unsupported "result variable"
  | .identifier name | .localVariable name => c.identifier name
  | .field access => r.field c access
  | .property access => r.property c access
  | .call call => r.call c call
  | .newInstance type arguments => r.newInstance c type arguments
  | .element array indices => r.element c array indices
  | .enumValue type value => r.enumValue c type value
  | .typeReference type => c.typeRef type
  | .typeOf type => r.typeOf c type
  | .sizeOf type => r.sizeOf c type
  | .defaultOf type => r.defaultOf c type
  | .typeCheck value type => r.typeCheck c value type
  | .typeCast cast => r.typeCast c cast
  | .binary lhs operator rhs => r.binary c lhs operator rhs
  | .unary operator value => r.unary c operator value
  | .conditional condition ifTrue ifFalse => r.conditional c condition ifTrue ifFalse
  | .parentheses inner => text "(" ++ c.expression inner ++ text ")"
  | .await inner => r.await c inner
  | .addressOf inner => r.addressOf c inner
  | .dereference inner => r.dereference c inner
  | .range start stop inclusive => r.range c start stop inclusive
  | .anonymousMethod method => r.anonymousMethod c method
  | .raw s => text s

/-- The rule for a type reference with the nullability in force. -/
def typeRule (c : Context) (t : TypeRef) : Doc :=
  let r := l.types
  match t.form with
  | .named type => r.named c t type
  | .predefined type => r.predefined c t type
  | .pointer target kind => r.pointer c t target kind
  | .array element bounds kind => r.array c t element bounds kind
  | .dictionary key value => r.dictionary c t key value
  | .tuple members => r.tuple c t members
  | .sequence element => r.sequence c t element
  | .kindOf target => r.kindOf c t target
  | .constant target => r.constant c t target
  | .inlineBlock block => r.inlineBlock c t block
  | .range .. => c.unsupported "range type"
  | .unknown => r.unknown c t

/-- The condition of a loop without one. -/
def endless : Expression := .detached (.boolean true)

/-- The rule for a statement. A loop without a condition is one whose condition is true. -/
def statementRule (c : Context) (s : Statement) : Doc :=
  let r := l.statements
  match s.form with
  | .block statements => r.block c statements
  | .expression value => r.expression c value
  | .declare declaration => r.declare c declaration
  | .assignment target value => r.assignment c target value
  | .conditional condition thenBranch elseBranch =>
    r.conditional c condition thenBranch elseBranch
  | .whileLoop condition body => r.whileLoop c condition body
  | .doWhile condition body => r.doWhile c condition body
  | .infiniteLoop body => synthetic endless.key (r.whileLoop c endless body)
  | .forTo loop => r.forTo c loop
  | .forEach loop => r.forEach c loop
  | .switch value cases default => r.switch c value cases default
  | .tryCatch attempt => r.tryCatch c attempt
  | .throwing value => r.throwing c value
  | .returning value => r.returning c value
  | .breakLoop => r.breakLoop c
  | .continueLoop => r.continueLoop c
  | .locking value body => r.locking c value body
  | .using resource => r.resource c resource
  | .comment comment => concat (comment.lines.map c.lineComment)
  | .empty => r.empty c
  | .raw s => text s

def memberRule (c : Context) (m : Member) : Doc :=
  let r := l.members
  match m.form with
  | .constructor body => r.constructor c m body
  | .destructor body => r.destructor c m body
  | .finalizer body => r.finalizer c m body
  | .method body => r.method c m body
  | .field field => r.field c m field
  | .property property => r.property c m property
  | .event event => r.event c m event
  | .customOperator operator body => r.customOperator c m operator body
  | .nestedType definition => c.typeDefinition definition

def definitionRule (c : Context) (t : TypeDefinition) : Doc :=
  let r := l.definitions
  match t.form with
  | .aliasType actual _ => r.aliasType c t actual
  | .enumeration base cases => r.enumeration c t base cases
  | .classType body => r.classType c t body
  | .structType body => r.structType c t body
  | .interfaceType body => r.interfaceType c t body
  | .extensionType body => r.extensionType c t body
  | .blockType parameters returnType => r.blockType c t parameters returnType

def docComment (comment : Comment) : Doc := l.units.docComment l.hooks comment ++ lineStart

/-- The comment and the attributes before a declaration. -/
def preamble (c : Context) (info : DeclarationInfo) : Doc :=
  whenSome info.comment l.docComment ++
    concat (info.attributes.map fun a =>
      l.guarded c a.condition (l.units.attributeLine c a ++ lineStart))

def expressionNode (c : Context) (e : Expression) : Doc := node e.key (l.expressionRule c e)

/-- A type reference as a node, written with a nullability in force. -/
def typeNode (c : Context) (t inForce : TypeRef) : Doc := node t.key (l.typeRule c inForce)

def parameterNode (c : Context) (p : Parameter) : Doc := node p.key (l.members.parameter c p)

/-- A statement as a node; it ends its line. -/
def statementNode (c : Context) (s : Statement) : Doc :=
  node s.key (l.statementRule c s) ++ lineStart

/-- A statement as the body of another. -/
def bodyNode (c : Context) (s : Statement) : Doc :=
  match s.form with
  | .block statements => node s.key (c.statements statements)
  | _ => l.statementNode c s

/-- A member as a node, with its guard, comment and attributes. -/
def memberNode (c : Context) (m : Member) : Doc :=
  l.guarded c m.info.condition
    (node m.key (l.preamble c m.info ++ l.memberRule c m) ++ lineStart)

/-- A type definition as a node, with its guard, comment and attributes. -/
def definitionNode (c : Context) (t : TypeDefinition) : Doc :=
  l.guarded c t.info.condition
    (node t.key (l.preamble c t.info ++ inside (.of t) (l.definitionRule c t)) ++ lineStart)

/-- The context that reaches `depth` levels below a node. -/
def context (setting : Setting) : Nat → Context
  | 0 =>
    { setting, language := l.hooks.name
      naming := ⟨l.hooks.keywords, l.hooks.escape, setting.omitNamespaces⟩
      lineComment := l.hooks.lineComment, remark := l.hooks.inlineComment
      docComment := l.docComment
      expression := fun _ => .empty, typeRef := fun _ => .empty, typeRefAs := fun _ _ => .empty
      parameter := fun _ => .empty, statement := fun _ => .empty, body := fun _ => .empty
      member := fun _ => .empty, typeDefinition := fun _ => .empty }
  | depth + 1 =>
    let c := context setting depth
    { c with
      expression := l.expressionNode c
      typeRef := fun t => l.typeNode c t t
      typeRefAs := fun n t => l.typeNode c t (t.view n)
      parameter := l.parameterNode c
      statement := l.statementNode c
      body := l.bodyNode c
      member := l.memberNode c
      typeDefinition := l.definitionNode c }

/-- The use of another unit, with its guard. -/
def importDoc (c : Context) (i : Import) : Doc :=
  l.guarded c i.condition (l.hooks.importing c i ++ lineStart)

/-- The comment at the head of a unit and a blank line. -/
def fileHeader (u : CodeUnit) : Doc :=
  whenSome u.headerComment fun comment =>
    concat (comment.lines.map l.hooks.lineComment) ++ newline

/-- The types of a unit; blank lines part them from each other, and from what stands before. -/
def typeList (c : Context) (first : Bool) : List TypeDefinition → Doc
  | [] => .empty
  | t :: ts => when (!first) typeGap ++ c.typeDefinition t ++ typeList c false ts

/-- A unit: header, imports, and the globals and types in its namespace. -/
def unitRule (c : Context) (u : CodeUnit) : Doc :=
  l.fileHeader u ++ concat (u.imports.map (l.importDoc c)) ++
    when (!u.imports.isEmpty) newline ++
    l.units.enclose c u (l.units.globals c u.globals ++ typeList c u.globals.isEmpty u.types)

/-! ### Documents of whole trees -/

def expressionDoc (setting : Setting) (e : Expression) : Doc :=
  (l.context setting e.size).expression e

def typeDoc (setting : Setting) (t : TypeRef) : Doc := (l.context setting t.size).typeRef t

/-- The document of a type reference written with another nullability. -/
def typeDocAs (setting : Setting) (n : Nullability) (t : TypeRef) : Doc :=
  (l.context setting t.size).typeRefAs n t

def parameterDoc (setting : Setting) (p : Parameter) : Doc :=
  (l.context setting p.size).parameter p

def statementDoc (setting : Setting) (s : Statement) : Doc :=
  (l.context setting s.size).statement s

/-- The document of a statement as the body of another. -/
def bodyDoc (setting : Setting) (s : Statement) : Doc := (l.context setting s.size).body s

def memberDoc (setting : Setting) (m : Member) : Doc := (l.context setting m.size).member m

def definitionDoc (setting : Setting) (t : TypeDefinition) : Doc :=
  (l.context setting t.size).typeDefinition t

def importTree (setting : Setting) (i : Import) : Doc := l.importDoc (l.context setting i.size) i

def unitDoc (setting : Setting) (u : CodeUnit) : Doc :=
  node u.key (l.unitRule (l.context setting u.size) u)

end Language

end SourcePrinter
