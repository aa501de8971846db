import SourcePrinter.Language.Brace
import SourcePrinter.Language.Rules

/-! Expressions of C#. -/

namespace SourcePrinter

namespace CSharp

open Doc

/-- The mark of the base of an integer. There is none for octal numbers. -/
def baseMark : Nat → Option String
  | 2 => some "0b"
  | 10 => some ""
  | 16 => some "0x"
  | _ => none

/-- The spelling of a binary operator. -/
def binarySymbol : BinaryOperator → Option String
  | .is => some "is"
  | .isNot => some "is not"
  | other => Brace.binarySymbol other

/-- The hexadecimal digits of a code point, in capitals. -/
def codePoint (value : Char) : String := String.ofList ((digits 16 value.toNat).map upperDigit)

/-- A character, which must be a single unit. -/
def character (c : Context) (value : Char) : Doc :=
  if value.toNat < 0x10000 then Brace.characterLiteral c '\'' .utf16 value
  else malformed ("character U+" ++ codePoint value ++ " does not fit a C# char")

/-- An array with its elements. -/
def array (c : Context) (elements : List Expression) (elementType : Option TypeRef) : Doc :=
  (match elementType with
    | some t => text "new " ++ c.typeRef t ++ text "[]"
    | none => text (if elements.isEmpty then "new object[]" else "new[]")) ++
    if elements.isEmpty then text " \x7b \x7d"
    else text " \x7b " ++ c.expressions elements ++ text " \x7d"

/-- A type, or the type of all objects. -/
def typeOrObject (c : Context) (t : Option TypeRef) : Doc :=
  match t with
  | some t => c.typeRef t
  | none => text "object"

/-- A dictionary with its entries. -/
def dictionary (c : Context) (d : DictionaryLiteral) : Doc :=
  text "new Dictionary<" ++ typeOrObject c d.keyType ++ text ", " ++ typeOrObject c d.valueType ++
    text ">" ++
    if d.keys.isEmpty then text "()"
    else
      text " \x7b " ++
        commaList ((d.keys.zip d.values).map fun (key, value) =>
          text "\x7b " ++ c.expression key ++ text ", " ++ c.expression value ++ text " \x7d") ++
        text " \x7d"

/-- A cast. In one that throws, an operand that is no literal or name stands in parentheses. -/
def typeCast (c : Context) (cast : TypeCast) : Doc :=
  if cast.throws then
    text "(" ++ c.typeRef cast.type ++ text ")" ++
      if cast.value.isLeaf then c.expression cast.value
      else text "(" ++ c.expression cast.value ++ text ")"
  else c.expression cast.value ++ text " as " ++ c.typeRef cast.type

/-- The rules for expressions. -/
def expressions : ExpressionRules where
  nil _ := text "null"
  boolean _ value := Brace.booleanLiteral value
  integer c value base := Brace.integerLiteral c baseMark value base
  float _ value := Brace.floatLiteral value
  string c s := Brace.stringLiteral c .utf16 s
  character := character
  array := array
  dictionary := dictionary
  tuple c members := text "(" ++ c.expressions members ++ text ")"
  selfReference _ := text "this"
  inherited _ := text "base"
  field := Brace.field
  property := Brace.property
  call := Brace.call
  newInstance c t arguments :=
    text "new " ++ c.typeRef t ++ text "(" ++ Brace.arguments c arguments ++ text ")"
  element := Brace.element
  enumValue := ExpressionRules.plain.enumValue
  typeOf c t := text "typeof(" ++ c.typeRef t ++ text ")"
  sizeOf c t := text "sizeof(" ++ c.typeRef t ++ text ")"
  defaultOf c t := text "default(" ++ c.typeRef t ++ text ")"
  typeCheck c value t := c.expression value ++ text " is " ++ c.typeRef t
  typeCast := typeCast
  binary c lhs operator rhs := Brace.binary c (binarySymbol operator) lhs operator rhs
  unary := Brace.unary
  conditional := Brace.conditional
  await c inner := text "await " ++ c.expression inner
  addressOf c inner := text "&" ++ c.expression inner
  dereference c inner := text "*" ++ c.expression inner
  range c start stop inclusive :=
    if inclusive then c.unsupported "range expression" "inclusive upper bound"
    else c.expression start ++ text ".." ++ c.expression stop
  anonymousMethod c m :=
    Brace.parameterList c m.parameters ++ line " => \x7b" ++ nested (c.statements m.statements) ++
      text "\x7d"

end CSharp

end SourcePrinter
