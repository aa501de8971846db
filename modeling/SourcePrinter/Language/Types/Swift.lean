import SourcePrinter.Language.Brace
import SourcePrinter.Language.Rules

/-! Types of Swift. Every type says whether it may be absent, except those that stand for another
type. -/

namespace SourcePrinter

namespace Swift

open Doc

/-- The mark of a type that may be absent: a question mark where access must unwrap, an exclamation
mark where it need not or where nothing is known. -/
def optionalMark (t : TypeRef) : Doc :=
  match t.effective with
  | .nullableNotUnwrapped => text "?"
  | .nullableUnwrapped | .unknown => text "!"
  | .default | .notNullable => .empty

/-- The name of a primitive type. -/
def predefinedName : PredefinedType → String
  | .int8 => "Int8"
  | .uint8 => "UInt8"
  | .int16 => "Int16"
  | .uint16 => "UInt16"
  | .int32 => "Int32"
  | .uint32 => "UInt32"
  | .int64 => "Int64"
  | .uint64 => "UInt64"
  | .intPtr => "Int"
  | .uintPtr => "UInt"
  | .single => "Float"
  | .double => "Double"
  | .boolean => "Bool"
  | .char => "Character"
  | .string => "String"
  | .object | .dynamic => "Any"
  | .void => "Void"

/-- There is no result, or none to speak of. -/
def isVoid (t : Option TypeRef) : Bool := t.all (·.isPredefined .void)

/-- The type of a result, which is `Void` when there is none. -/
def resultType (c : Context) (t : Option TypeRef) : Doc :=
  match t with
  | some result => if result.isPredefined .void then text "Void" else c.typeRef result
  | none => text "Void"

/-- The arrow and the type of a result; nothing when there is none. -/
def returnClause (c : Context) (t : Option TypeRef) : Doc :=
  whenSome t fun result =>
    when (!result.isPredefined .void) (text " -> " ++ c.typeRef result)

/-- A function type. -/
def functionType (c : Context) (block : InlineBlock) : Doc :=
  text "(" ++ c.typeRefs block.parameters ++ text ") -> " ++ resultType c block.returnType

/-- The type says that it may be absent. -/
def isMarked (t : TypeRef) : Bool := t.effective != .default && t.effective != .notNullable

/-- The rules for types. A function type that may be absent stands in parentheses. -/
def types : TypeRules where
  named c t n := c.typeName n ++ Brace.genericArguments c n.genericArguments ++ optionalMark t
  predefined _ t p := text (predefinedName p) ++ when (p != .void) (optionalMark t)
  pointer c t target kind :=
    match kind with
    | .pointer => text "UnsafeMutablePointer<" ++ c.typeRef target ++ text ">" ++ optionalMark t
    | .reference => c.typeRef target
  array c t element _ _ := text "[" ++ c.typeRef element ++ text "]" ++ optionalMark t
  dictionary c t key value :=
    text "[" ++ c.typeRef key ++ text ": " ++ c.typeRef value ++ text "]" ++ optionalMark t
  tuple c t members := text "(" ++ c.typeRefs members ++ text ")" ++ optionalMark t
  sequence c t element := text "AnySequence<" ++ c.typeRef element ++ text ">" ++ optionalMark t
  kindOf c _ target := c.typeRef target
  constant c _ target := c.typeRef target
  inlineBlock c t block :=
    if isMarked t then text "(" ++ functionType c block ++ text ")" ++ optionalMark t
    else functionType c block
  unknown _ _ := text "Any"

end Swift

end SourcePrinter
