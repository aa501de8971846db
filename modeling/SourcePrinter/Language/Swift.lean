import SourcePrinter.Language.Declarations.Swift

/-! Swift: braces that open on the line before, names escaped by backticks, and a mark on every type
that may be absent. -/

namespace SourcePrinter

namespace Swift

/-- The reserved words of Swift. -/
def keywords : KeywordSet := .sensitive
  ["associatedtype", "class", "deinit", "enum", "extension", "fileprivate", "func", "import",
    "init", "inout", "internal", "let", "open", "operator", "private", "precedencegroup",
    "protocol", "public", "rethrows", "static", "struct", "subscript", "typealias", "var", "break",
    "case", "catch", "continue", "default", "defer", "do", "else", "fallthrough", "for", "guard",
    "if", "in", "repeat", "return", "throw", "switch", "where", "while", "Any", "as", "await",
    "false", "is", "nil", "self", "Self", "super", "throws", "true", "try"]

/-- The character on both sides of an escaped name. -/
def nameQuote : Char := '\x60'

/-- The hooks of Swift. -/
def hooks : Hooks where
  name := "Swift"
  fileExtension := "swift"
  keywords := keywords
  escape s := nameQuote :: (s ++ [nameQuote])
  lineComment := Brace.lineComment
  inlineComment := Brace.inlineComment
  importing c i := .text "import " ++ c.qualified i.name ++ .newline

end Swift

/-- The language Swift, with the values of enumerations in lower case if that is the convention. -/
def Language.swift (lowercaseCases : Bool) : Language :=
  { hooks := Swift.hooks, units := Swift.units, definitions := Swift.definitions lowercaseCases,
    members := Swift.members, statements := Swift.statements,
    expressions := Swift.expressions lowercaseCases, types := Swift.types }

end SourcePrinter
