import SourcePrinter.Language.CSharp

/-! Languages that are given by their hooks: one with plain rules only, and one that takes a few
rules from C#. -/

namespace SourcePrinter

/-- What tells one such language from another. -/
structure CustomHooks where
  name : String
  fileExtension : String
  keywords : KeywordSet
  /-- What stands before and after an escaped name. -/
  opening : String
  closing : String

namespace CustomHooks

/-- The name when none is given. -/
def initialName : String := "Custom"

/-- The extension when none is given. -/
def initialExtension : String := "txt"

/-- What stands before an escaped name when nothing is given. -/
def initialOpening : String := "<"

/-- What stands after an escaped name when nothing is given. -/
def initialClosing : String := ">"

/-- The hooks. A line comment starts with a number sign, and an inline one stands in braces with
dashes. An import ends no line. -/
def hooks (h : CustomHooks) : Hooks where
  name := h.name
  fileExtension := h.fileExtension
  keywords := h.keywords
  escape s := h.opening.toList ++ s ++ h.closing.toList
  lineComment s := Doc.line ("# " ++ s)
  inlineComment s := .text ("\x7b- " ++ s ++ " -\x7d")
  importing c i := .text "import " ++ c.identifier i.name

end CustomHooks

namespace Language

/-- The language with the plain rules. -/
def bare (h : CustomHooks) : Language := .plain h.hooks

/-- The plain language that takes from C# classes, methods and parameters, the expression statement
and the loop with its condition first, truth values, integers, tuples, calls and binary operators,
and types referred to by name. -/
def mixed (h : CustomHooks) : Language where
  hooks := h.hooks
  units := .plain
  definitions := { DefinitionRules.plain with classType := CSharp.definitions.classType }
  members :=
    { MemberRules.plain with
      method := CSharp.members.method
      parameter := CSharp.members.parameter }
  statements :=
    { StatementRules.plain with
      expression := CSharp.statements.expression
      whileLoop := CSharp.statements.whileLoop }
  expressions :=
    { ExpressionRules.plain with
      boolean := CSharp.expressions.boolean
      integer := CSharp.expressions.integer
      tuple := CSharp.expressions.tuple
      call := CSharp.expressions.call
      binary := CSharp.expressions.binary }
  types := { TypeRules.plain with named := CSharp.types.named }

end Language

end SourcePrinter
