import SourcePrinter.Language.Types.Swift
import SourcePrinter.Text.Lowercase

/-! Expressions of Swift. -/

namespace SourcePrinter

namespace Swift

open Doc

/-- The mark of the base of an integer. -/
def baseMark : Nat → Option String
  | 2 => some "0b"
  | 8 => some "0o"
  | 10 => some ""
  | 16 => some "0x"
  | _ => none

/-- The spelling of a binary operator. -/
def binarySymbol : BinaryOperator → Option String
  | .is => some "==="
  | .isNot => some "!=="
  | other => Brace.binarySymbol other

/-- The name of a value of an enumeration, in lower case if that is the convention. -/
def caseName (lowercaseCases : Bool) (name : String) : String :=
  if lowercaseCases then lowercaseFirst name else name

/-- An array; one without elements says the type of them if it is known. -/
def array (c : Context) (elements : List Expression) (elementType : Option TypeRef) : Doc :=
  match elements, elementType with
  | [], some t => text "[" ++ c.typeRef t ++ text "]()"
  | _, _ => text "[" ++ c.expressions elements ++ text "]"

/-- A dictionary with its entries. -/
def dictionary (c : Context) (d : DictionaryLiteral) : Doc :=
  if d.keys.isEmpty then text "[:]"
  else
    text "[" ++
      commaList ((d.keys.zip d.values).map fun (key, value) =>
        c.expression key ++ text ": " ++ c.expression value) ++
      text "]"

/-- What a slot of a type holds when nothing was stored. The value belongs to the type and has no
span. -/
def defaultOf (c : Context) (t : TypeRef) : Doc :=
  match t.defaultValue with
  | some value => synthetic value.key (c.expression value)
  | none => c.unsupported "default value" "type has no default value"

/-- A type that is not absent. -/
def presentType (c : Context) (t : TypeRef) : Doc := c.typeRefAs .notNullable t

/-- The rules for expressions. -/
def expressions (lowercaseCases : Bool) : ExpressionRules where
  nil _ := text "nil"
  boolean _ value := Brace.booleanLiteral value
  integer c value base := Brace.integerLiteral c baseMark value base
  float _ value := Brace.floatLiteral value
  string c s := Brace.stringLiteral c .braced s
  character c value := Brace.characterLiteral c '"' .braced value
  array := array
  dictionary := dictionary
  tuple c members := text "(" ++ c.expressions members ++ text ")"
  selfReference _ := text "self"
  inherited _ := text "super"
  field := Brace.field
  property := Brace.property
  call := Brace.call
  newInstance c t arguments :=
    presentType c t ++ text "(" ++ Brace.arguments c arguments ++ text ")"
  element := Brace.element
  enumValue c t value :=
    presentType c t ++ text "." ++ c.identifier (caseName lowercaseCases value)
  typeOf c t := c.typeRef t ++ text ".self"
  sizeOf c t := text "MemoryLayout<" ++ c.typeRef t ++ text ">.size"
  defaultOf := defaultOf
  typeCheck c value t := c.expression value ++ text " is " ++ presentType c t
  typeCast c cast :=
    c.expression cast.value ++ text (if cast.throws then " as! " else " as? ") ++
      presentType c cast.type
  binary c lhs operator rhs := Brace.binary c (binarySymbol operator) lhs operator rhs
  unary := Brace.unary
  conditional := Brace.conditional
  await c inner := text "await " ++ c.expression inner
  addressOf c inner := text "&" ++ c.expression inner
  dereference c inner := c.expression inner ++ text ".pointee"
  range c start stop inclusive :=
    c.expression start ++ text (if inclusive then "..." else "..<") ++ c.expression stop
  anonymousMethod c m :=
    text "\x7b " ++ Brace.parameterList c m.parameters ++ returnClause c m.returnType ++
      line " in" ++ nested (c.statements m.statements) ++ text "\x7d"

end Swift

end SourcePrinter
