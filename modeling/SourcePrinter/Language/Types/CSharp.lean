import SourcePrinter.Language.Brace
import SourcePrinter.Language.Rules

/-! Types of C#. Types held by reference may be absent without saying so; a type held in place is
marked when it may. -/

namespace SourcePrinter

namespace CSharp

open Doc

/-- The mark of a type held in place that may be absent. -/
def nullableMark (t : TypeRef) : Doc := when (!t.isClass && t.isNullable) (text "?")

/-- The keyword of a primitive type. -/
def predefinedName : PredefinedType → String
  | .int8 => "sbyte"
  | .uint8 => "byte"
  | .int16 => "short"
  | .uint16 => "ushort"
  | .int32 => "int"
  | .uint32 => "uint"
  | .int64 => "long"
  | .uint64 => "ulong"
  | .intPtr => "nint"
  | .uintPtr => "nuint"
  | .single => "float"
  | .double => "double"
  | .boolean => "bool"
  | .char => "char"
  | .string => "string"
  | .object => "object"
  | .dynamic => "dynamic"
  | .void => "void"

/-- The commas between the dimensions of an array. -/
def rankCommas (bounds : List Bounds) : ArrayKind → Nat
  | .dynamic => 0
  | .static | .inline => bounds.length - 1

/-- A callable type, by the delegate for its number of parameters. -/
def inlineBlock (c : Context) (block : InlineBlock) : Doc :=
  match block.returnType with
  | none =>
    if block.parameters.isEmpty then text "Action"
    else text "Action<" ++ c.typeRefs block.parameters ++ text ">"
  | some result => text "Func<" ++ c.typeRefs (block.parameters ++ [result]) ++ text ">"

/-- The rules for types. -/
def types : TypeRules where
  named c t n := c.typeName n ++ Brace.genericArguments c n.genericArguments ++ nullableMark t
  predefined _ t p := text (predefinedName p) ++ nullableMark t
  pointer c _ target kind :=
    match kind with
    | .pointer => c.typeRef target ++ text "*"
    | .reference => text "ref " ++ c.typeRef target
  array c t element bounds kind :=
    c.typeRef element ++
      text (String.ofList ('[' :: (List.replicate (rankCommas bounds kind) ',' ++ [']']))) ++
      nullableMark t
  dictionary c _ key value :=
    text "Dictionary<" ++ c.typeRef key ++ text ", " ++ c.typeRef value ++ text ">"
  tuple c t members := text "(" ++ c.typeRefs members ++ text ")" ++ nullableMark t
  sequence c _ element := text "IEnumerable<" ++ c.typeRef element ++ text ">"
  kindOf c _ target := c.typeRef target
  constant c _ target := c.typeRef target
  inlineBlock c _ block := inlineBlock c block
  unknown _ _ := text "dynamic"

end CSharp

end SourcePrinter
