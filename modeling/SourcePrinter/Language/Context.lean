import SourcePrinter.Doc.Basic
import SourcePrinter.Name.Resolve
import SourcePrinter.Options
import SourcePrinter.Syntax.TypeRef

/-! What the rules of a language work with: the settings of the rendering, the spelling of names,
the remark for what cannot be said, and the documents of the parts of a node. -/

namespace SourcePrinter

/-- The settings that choose words. -/
structure Setting where
  omitNamespaces : Bool
  preserveUnicode : Bool
  /-- Declarations are written without bodies. -/
  definitionOnly : Bool
  /-- The namespace of the unit, whose types are written without it. -/
  localNamespace : Option String
  deriving DecidableEq, Repr

namespace Setting

/-- The settings of a rendering in a unit. -/
def of (options : Options) (unit : Option CodeUnit) (definitionOnly : Bool) : Setting :=
  { omitNamespaces := options.omitNamespaces, preserveUnicode := options.preserveUnicode,
    definitionOnly, localNamespace := unit.bind (·.namespaceName) }

end Setting

/-- What a rule works with. -/
structure Context where
  setting : Setting
  /-- The name of the language in messages. -/
  language : String
  naming : Naming
  /-- A comment that fills a line. -/
  lineComment : String → Doc
  /-- A comment in the middle of a line. -/
  remark : String → Doc
  docComment : Comment → Doc
  expression : Expression → Doc
  typeRef : TypeRef → Doc
  /-- A type written with another nullability, under its own key. -/
  typeRefAs : Nullability → TypeRef → Doc
  parameter : Parameter → Doc
  statement : Statement → Doc
  /-- A statement that is the body of another: a block gives only its statements. -/
  body : Statement → Doc
  member : Member → Doc
  typeDefinition : TypeDefinition → Doc

namespace Context

open Doc

/-- A name with colliding segments escaped. -/
def identifier (c : Context) (name : String) : Doc :=
  text (c.naming.resolve .escaped .ordinary name)

/-- A name that keeps its namespace. -/
def qualified (c : Context) (name : String) : Doc :=
  text (c.naming.resolve .escaped .always name)

/-- A name that is not checked against the reserved words. -/
def verbatim (c : Context) (name : String) : Doc :=
  text (c.naming.resolve .verbatim .ordinary name)

/-- The name of a type; a type of the unit's own namespace is written without it. -/
def typeName (c : Context) (n : NamedType) : Doc :=
  match n.namespaceName, c.setting.localNamespace with
  | some space, some own => c.identifier (if space = own then n.name else n.fullName)
  | _, _ => c.identifier n.fullName

/-- What the language has no words for. -/
def unsupported (c : Context) (construct : String) (detail : Option String := none) : Doc :=
  let gap : Gap := ⟨c.language, construct, detail⟩
  .unsupported gap (c.remark gap.message)

/-- Statements in order. -/
def statements (c : Context) (ss : List Statement) : Doc := concat (ss.map c.statement)

/-- Expressions parted by commas. -/
def expressions (c : Context) (es : List Expression) : Doc := commaList (es.map c.expression)

/-- Types parted by commas. -/
def typeRefs (c : Context) (ts : List TypeRef) : Doc := commaList (ts.map c.typeRef)

end Context

end SourcePrinter
