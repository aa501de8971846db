import SourcePrinter.Language.Declarations.CSharp
import SourcePrinter.Language.Expressions.CSharp
import SourcePrinter.Language.Statements.CSharp
import SourcePrinter.Language.Types.CSharp

/-! C#: braces on lines of their own, names escaped by an at sign, and a mark on the types held in
place that may be absent. -/

namespace SourcePrinter

namespace CSharp

/-- The reserved words of C#. -/
def keywords : KeywordSet := .sensitive
  ["abstract", "as", "base", "bool", "break", "byte", "case", "catch", "char", "checked", "class",
    "const", "continue", "decimal", "default", "delegate", "do", "double", "else", "enum", "event",
    "explicit", "extern", "false", "finally", "fixed", "float", "for", "foreach", "goto", "if",
    "implicit", "in", "int", "interface", "internal", "is", "lock", "long", "namespace", "new",
    "null", "object", "operator", "out", "override", "params", "private", "protected", "public",
    "readonly", "ref", "return", "sbyte", "sealed", "short", "sizeof", "stackalloc", "static",
    "string", "struct", "switch", "this", "throw", "true", "try", "typeof", "uint", "ulong",
    "unchecked", "unsafe", "ushort", "using", "virtual", "void", "volatile", "while"]

/-- The hooks of C#. -/
def hooks : Hooks where
  name := "C#"
  fileExtension := "cs"
  keywords := keywords
  escape s := '@' :: s
  lineComment := Brace.lineComment
  inlineComment := Brace.inlineComment
  importing c i :=
    .text (if i.isStatic then "using static " else "using ") ++ c.qualified i.name ++ Doc.line ";"

end CSharp

/-- The language C#. -/
def Language.csharp : Language :=
  { hooks := CSharp.hooks, units := CSharp.units, definitions := CSharp.definitions,
    members := CSharp.members, statements := CSharp.statements,
    expressions := CSharp.expressions, types := CSharp.types }

end SourcePrinter
