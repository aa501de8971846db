import SourcePrinter.Language.Context
import SourcePrinter.Number.Shortest
import SourcePrinter.Text.Quoted
import SourcePrinter.Syntax.Declaration

/-! What the languages with curly braces share: comments, conditions, blocks, operators, access to
members, calls, literals and the simple statements. -/

namespace SourcePrinter

namespace Brace

open Doc

/-! ### Comments and conditions -/

/-- A comment that fills a line. -/
def lineComment (s : String) : Doc :=
  line (if s.isEmpty then "//" else "// " ++ s)

/-- A text with a space inside each `*/`. -/
def spaceClosers : List Char → List Char
  | [] => []
  | [c] => [c]
  | c :: d :: rest =>
    if c = '*' ∧ d = '/' then '*' :: ' ' :: '/' :: spaceClosers rest
    else c :: spaceClosers (d :: rest)

/-- A comment in the middle of a line; its text cannot end it. -/
def inlineComment (s : String) : Doc :=
  text "/* " ++ text (String.ofList (spaceClosers s.toList)) ++ text " */"

/-- One line of a comment before a declaration. -/
def docLine (s : String) : Doc :=
  line (if s.isEmpty then "///" else "/// " ++ s)

def docLines (lines : List String) : Doc := concat (lines.map docLine)

def conditionStart (c : Context) (condition : Expression) : Doc :=
  text "#if " ++ c.expression condition ++ newline

def conditionEnd : Doc := line "#endif"

/-! ### Blocks -/

/-- A document between braces on lines of their own, one level deeper. -/
def braced (d : Doc) : Doc := line "\x7b" ++ nested d ++ line "\x7d"

def block (c : Context) (statements : List Statement) : Doc := braced (c.statements statements)

def body (c : Context) (s : Statement) : Doc := braced (c.body s)

/-! ### Operators -/

/-- The spelling of a binary operator, where the languages agree on one. -/
def binarySymbol : BinaryOperator → Option String
  | .add => some "+"
  | .subtract => some "-"
  | .multiply => some "*"
  | .divide | .integerDivide => some "/"
  | .modulus => some "%"
  | .equals => some "=="
  | .notEquals => some "!="
  | .lessThan => some "<"
  | .lessThanOrEqual => some "<="
  | .greaterThan => some ">"
  | .greaterThanOrEqual => some ">="
  | .logicalAnd => some "&&"
  | .logicalOr => some "||"
  | .logicalXor | .bitwiseXor => some "^"
  | .bitwiseAnd => some "&"
  | .bitwiseOr => some "|"
  | .shiftLeft => some "<<"
  | .shiftRight => some ">>"
  | .addEvent => some "+="
  | .removeEvent => some "-="
  | .nullCoalesce => some "??"
  | .implies | .is | .isNot => none

/-- The spelling of a unary operator. -/
def unarySymbol : UnaryOperator → String
  | .plus => "+"
  | .minus => "-"
  | .not => "!"
  | .bitwiseNot => "~"

/-- Two operands around an operator, which is a gap if it has no spelling. -/
def binary (c : Context) (symbol : Option String) (lhs : Expression) (operator : BinaryOperator)
    (rhs : Expression) : Doc :=
  match symbol with
  | none => c.unsupported "binary operator" operator.name
  | some s => c.expression lhs ++ text (" " ++ s ++ " ") ++ c.expression rhs

def unary (c : Context) (operator : UnaryOperator) (value : Expression) : Doc :=
  text (unarySymbol operator) ++ c.expression value

def conditional (c : Context) (condition ifTrue ifFalse : Expression) : Doc :=
  c.expression condition ++ text " ? " ++ c.expression ifTrue ++ text " : " ++
    c.expression ifFalse

/-! ### Access and calls -/

/-- The value whose member is meant and a dot; nothing for the current scope. -/
def site (c : Context) (value : Option Expression) (nullSafe : Bool) : Doc :=
  whenSome value fun e => c.expression e ++ text (if nullSafe then "?." else ".")

/-- One argument, after its label if it has one. -/
def argument (c : Context) (a : Argument) : Doc :=
  whenSome a.label (fun label => c.identifier label ++ text ": ") ++ c.expression a.value

def arguments (c : Context) (as : List Argument) : Doc := commaList (as.map (argument c))

def field (c : Context) (access : FieldAccess) : Doc :=
  site c access.site access.nullSafe ++ c.identifier access.name

/-- A property, with its arguments in brackets if it has any. One without a name is the value
itself with the arguments. -/
def property (c : Context) (access : PropertyAccess) : Doc :=
  site c access.site access.nullSafe ++
    if access.arguments.isEmpty then c.identifier access.name
    else
      when (!access.name.isEmpty) (c.identifier access.name) ++ text "[" ++
        arguments c access.arguments ++ text "]"

/-- Type arguments between angle brackets; nothing when there are none. -/
def genericArguments (c : Context) (types : List TypeRef) : Doc :=
  when (!types.isEmpty) (text "<" ++ c.typeRefs types ++ text ">")

def call (c : Context) (call : MethodCall) : Doc :=
  site c call.site call.nullSafe ++ c.identifier call.name ++
    genericArguments c call.genericArguments ++ text "(" ++ arguments c call.arguments ++ text ")"

def element (c : Context) (array : Expression) (indices : List Expression) : Doc :=
  c.expression array ++ text "[" ++ c.expressions indices ++ text "]"

/-- The names of type parameters between angle brackets; nothing when there are none. -/
def genericNames (c : Context) (parameters : List GenericParameter) : Doc :=
  when (!parameters.isEmpty)
    (text "<" ++ commaList (parameters.map fun p => c.identifier p.name) ++ text ">")

def parameterList (c : Context) (parameters : List Parameter) : Doc :=
  text "(" ++ commaList (parameters.map c.parameter) ++ text ")"

/-! ### Literals -/

def stringLiteral (c : Context) (style : UnicodeEscape) (s : String) : Doc :=
  text (Quoted.literal '"' c.setting.preserveUnicode style s.toList)

def characterLiteral (c : Context) (quote : Char) (style : UnicodeEscape) (value : Char) : Doc :=
  text (Quoted.literal quote c.setting.preserveUnicode style [value])

/-- The digits of a magnitude: binary, octal and hexadecimal in their bases, else decimal. -/
def magnitudeDigits (base magnitude : Nat) : List Char :=
  let used := if base = 2 ∨ base = 8 ∨ base = 16 then base else 10
  (digits used magnitude).map upperDigit

/-- The text of an integer: sign, mark of the base, digits. -/
def integerText (mark : String) (value : Int) (base : Nat) : String :=
  (if value < 0 then "-" else "") ++ mark ++ String.ofList (magnitudeDigits base value.natAbs)

/-- An integer in a base that the language has a mark for. -/
def integerLiteral (c : Context) (mark? : Nat → Option String) (value : Int) (base : Nat) : Doc :=
  match mark? base with
  | some mark => text (integerText mark value base)
  | none =>
    malformed ("the " ++ c.language ++ " backend cannot spell integer literals in base " ++
      toString base)

/-- The text of a finite number, always with a point. -/
def floatText (value : Binary64) : String :=
  let s := value.decimal
  if s.toList.contains '.' then s else s ++ ".0"

def floatLiteral (value : Binary64) : Doc :=
  if value.isFinite then text (floatText value)
  else malformed ("non-finite float literal " ++ value.decimal)

def booleanLiteral (value : Bool) : Doc := text (if value then "true" else "false")

/-! ### Statements -/

def expressionStatement (c : Context) (value : Expression) : Doc := c.expression value ++ line ";"

def assignment (c : Context) (target value : Expression) : Doc :=
  c.expression target ++ text " = " ++ c.expression value ++ line ";"

/-- A keyword, perhaps with a value. -/
def keywordStatement (c : Context) (keyword : String) (value : Option Expression) : Doc :=
  text keyword ++ whenSome value (fun e => text " " ++ c.expression e) ++ line ";"

/-- A conditional; one in the other branch continues it. -/
def conditionalStatement (c : Context) (condition : Expression) (thenBranch : Statement)
    (elseBranch : Option Statement) : Doc :=
  text "if (" ++ c.expression condition ++ line ")" ++ body c thenBranch ++
    whenSome elseBranch fun other =>
      if other.isConditional then text "else " ++ c.statement other
      else line "else" ++ body c other

def whileLoop (c : Context) (condition : Expression) (s : Statement) : Doc :=
  text "while (" ++ c.expression condition ++ line ")" ++ body c s

def doWhile (c : Context) (condition : Expression) (s : Statement) : Doc :=
  line "do" ++ body c s ++ text "while (" ++ c.expression condition ++ line ");"

end Brace

end SourcePrinter
