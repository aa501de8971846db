import SourcePrinter.Language.Brace
import SourcePrinter.Language.Rules

/-! Declarations of C#: types, members, and the namespace and host class around them. -/

namespace SourcePrinter

namespace CSharp

open Doc

/-! ### Modifiers -/

def visibilityWord : Visibility → Option String
  | .unspecified => none
  | .hidden => some "private"
  | .unit | .assembly => some "internal"
  | .inherited => some "protected"
  | .everyone => some "public"

def virtualityWord : Virtuality → Option String
  | .none => none
  | .virtual => some "virtual"
  | .abstract => some "abstract"
  | .override => some "override"
  | .final => some "sealed override"

/-- A word and a space, or nothing. -/
def wordSpace (word : Option String) : Doc := whenSome word fun w => text w ++ text " "

/-- Visibility, `static` and virtuality of a member; in an interface there are none. -/
def memberModifiers (m : Member) : Doc :=
  perScope fun scope =>
    when (!scope.any TypeScope.isInterface)
      (wordSpace (visibilityWord m.info.visibility) ++
        when ((m.isStatic || scope.any TypeScope.isStatic) && !m.isConstant) (text "static ") ++
        wordSpace (virtualityWord m.virtuality))

/-! ### Functions -/

/-- The type of the result, or the word for none. -/
def returnType (c : Context) (t : Option TypeRef) : Doc :=
  match t with
  | some t => c.typeRef t
  | none => text "void"

/-- The bounds of each bounded type parameter. -/
def genericConstraints (c : Context) (parameters : List GenericParameter) : Doc :=
  concat ((parameters.filter fun p => !p.constraints.isEmpty).map fun p =>
    text " where " ++ c.identifier p.name ++ text " : " ++ c.typeRefs p.constraints)

/-- The statements of a function, or the end of its signature where it has none. -/
def methodBody (c : Context) (m : Member) (body : MethodBody) : Doc :=
  perScope fun scope =>
    if c.setting.definitionOnly || body.external || scope.any TypeScope.isInterface ||
        m.virtuality == .abstract then line ";"
    else newline ++ Brace.block c body.statements

/-- The name of the type that is being written, or of the member where there is none. -/
def ownerName (c : Context) (m : Member) : Doc :=
  perScope fun scope =>
    c.identifier
      (match scope with
        | some s => s.name
        | none => m.name)

def method (c : Context) (m : Member) (body : MethodBody) : Doc :=
  memberModifiers m ++ when body.external (text "extern ") ++ when body.isAsync (text "async ") ++
    returnType c body.returnType ++ text " " ++ c.identifier m.name ++
    Brace.genericNames c body.genericParameters ++ Brace.parameterList c body.parameters ++
    genericConstraints c body.genericParameters ++ methodBody c m body

/-- The words before a parameter. -/
def modifierWord : ParameterModifier → String
  | .value => ""
  | .out => "out "
  | .byReference => "ref "
  | .readOnly => "in "
  | .variadic => "params "

def parameter (c : Context) (p : Parameter) : Doc :=
  text (modifierWord p.modifier) ++ c.typeRef p.type ++ text " " ++ c.identifier p.name ++
    whenSome p.default fun e => text " = " ++ c.expression e

/-- The symbol of an operator, or the word of a conversion. -/
def operatorSymbol : OverloadableOperator → String
  | .plus => "+"
  | .minus => "-"
  | .multiply => "*"
  | .divide => "/"
  | .modulus => "%"
  | .equals => "=="
  | .notEquals => "!="
  | .lessThan => "<"
  | .lessThanOrEqual => "<="
  | .greaterThan => ">"
  | .greaterThanOrEqual => ">="
  | .not => "!"
  | .bitwiseNot => "~"
  | .implicitConversion => "implicit"
  | .explicitConversion => "explicit"

/-- The operator converts its operand to another type. -/
def isConversion (operator : OverloadableOperator) : Bool :=
  operator == .implicitConversion || operator == .explicitConversion

/-- An operator of a type. A conversion needs a type to convert to. -/
def customOperator (c : Context) (m : Member) (operator : OverloadableOperator)
    (body : MethodBody) : Doc :=
  text "public static " ++
    (if isConversion operator then
      match body.returnType with
      | none => malformed ("conversion operator " ++ m.name ++ " has no target type")
      | some target => text (operatorSymbol operator) ++ text " operator " ++ c.typeRef target
    else
      returnType c body.returnType ++ text " operator " ++ text (operatorSymbol operator)) ++
    Brace.parameterList c body.parameters ++ methodBody c m body

/-! ### Fields, properties and events -/

/-- A field; without a type it cannot be written. -/
def field (c : Context) (m : Member) (f : FieldMember) : Doc :=
  match f.type with
  | none => c.unsupported "field without a type"
  | some t =>
    memberModifiers m ++
      (if f.constant then text "const " else when f.readOnly (text "readonly ")) ++
      c.typeRef t ++ text " " ++ c.identifier m.name ++
      whenSome f.initializer (fun e => text " = " ++ c.expression e) ++ line ";"

/-- The accessors of a property without their statements. -/
def accessorSignatures (p : PropertyMember) : Doc :=
  text " \x7b" ++ when p.isReadable (text " get;") ++ when p.isSettable (text " set;") ++
    text " \x7d"

/-- An accessor with its statements. -/
def accessor (c : Context) (keyword : String) (statements : List Statement) : Doc :=
  line keyword ++ Brace.block c statements

/-- A property, or an indexer when it has parameters. -/
def property (c : Context) (m : Member) (p : PropertyMember) : Doc :=
  memberModifiers m ++ c.typeRef p.type ++ text " " ++
    (if p.parameters.isEmpty then c.identifier m.name
      else text "this[" ++ commaList (p.parameters.map c.parameter) ++ text "]") ++
    if p.isStored || c.setting.definitionOnly then
      accessorSignatures p ++
        when p.isStored
          (whenSome p.initializer fun e => text " = " ++ c.expression e ++ text ";") ++
        newline
    else
      newline ++
        Brace.braced
          (whenSome p.getter (accessor c "get") ++ whenSome p.setter (accessor c "set"))

/-- An event; its accessors are written when both are there. -/
def event (c : Context) (m : Member) (e : EventMember) : Doc :=
  memberModifiers m ++ text "event " ++ c.typeRef e.type ++ text " " ++ c.identifier m.name ++
    match e.add, e.remove with
    | some add, some remove =>
      if c.setting.definitionOnly then line ";"
      else newline ++ Brace.braced (accessor c "add" add ++ accessor c "remove" remove)
    | _, _ => line ";"

/-- The rules for members. There are no destructors apart from finalizers. -/
def members : MemberRules where
  constructor c m body :=
    memberModifiers m ++ ownerName c m ++ Brace.parameterList c body.parameters ++
      methodBody c m body
  destructor := MemberRules.plain.destructor
  finalizer c m body := text "~" ++ ownerName c m ++ text "()" ++ methodBody c m body
  method := method
  field := field
  property := property
  event := event
  customOperator := customOperator
  parameter := parameter

/-! ### Types -/

/-- Members in order, parted by a blank line except between two fields. -/
def memberList (c : Context) : List Member → Doc
  | [] => .empty
  | [m] => c.member m
  | m :: next :: more =>
    c.member m ++ when (!(m.isField && next.isField)) newline ++ memberList c (next :: more)

/-- The types that a type builds on; nothing when there are none. -/
def baseList (c : Context) (bases : List TypeRef) : Doc :=
  when (!bases.isEmpty) (text " : " ++ c.typeRefs bases)

/-- A class, structure or interface. -/
def classLike (c : Context) (keyword : String) (t : TypeDefinition) (body : ClassBody) : Doc :=
  wordSpace (visibilityWord t.info.visibility) ++ when body.isStatic (text "static ") ++
    when body.isAbstract (text "abstract ") ++ when body.isSealed (text "sealed ") ++
    when body.isPartial (text "partial ") ++ text keyword ++ text " " ++ c.identifier t.name ++
    Brace.genericNames c body.genericParameters ++
    baseList c (body.ancestors ++ body.interfaces) ++
    genericConstraints c body.genericParameters ++ newline ++
    Brace.braced (memberList c body.members)

/-- A value of an enumeration, followed by a comma unless it is the last. -/
def enumCase (c : Context) (v : EnumCase) (last : Bool) : Doc :=
  whenSome v.comment c.docComment ++ c.identifier v.name ++
    whenSome v.value (fun e => text " = " ++ c.expression e) ++ when (!last) (text ",") ++ newline

def enumCases (c : Context) : List EnumCase → Doc
  | [] => .empty
  | v :: more => enumCase c v more.isEmpty ++ enumCases c more

/-- The rules for type definitions. There are no extensions. -/
def definitions : DefinitionRules where
  aliasType c t actual :=
    text "using " ++ c.identifier t.name ++ text " = " ++ c.typeRef actual ++ line ";"
  enumeration c t base cases :=
    wordSpace (visibilityWord t.info.visibility) ++ text "enum " ++ c.identifier t.name ++
      whenSome base (fun b => text " : " ++ c.typeRef b) ++ newline ++
      Brace.braced (enumCases c cases)
  classType c t body := classLike c "class" t body
  structType c t body := classLike c "struct" t body
  interfaceType c t body := classLike c "interface" t body
  extensionType := DefinitionRules.plain.extensionType
  blockType c t parameters result :=
    wordSpace (visibilityWord t.info.visibility) ++ text "delegate " ++ returnType c result ++
      text " " ++ c.identifier t.name ++ Brace.parameterList c parameters ++ line ";"

/-! ### Units -/

/-- The name of the static class that holds functions and variables outside any type. -/
def hostName : String := "__Global"

/-- Members in order, parted by blank lines. -/
def spacedMembers (c : Context) : List Member → Doc
  | [] => .empty
  | [m] => c.member m
  | m :: next :: more => c.member m ++ newline ++ spacedMembers c (next :: more)

/-- Functions and variables outside any type, in a host class. -/
def globals (c : Context) (gs : List Global) : Doc :=
  when (!gs.isEmpty)
    (text "public static partial class " ++ c.verbatim hostName ++ newline ++
      Brace.braced (inside ⟨hostName, false, true⟩ (spacedMembers c (gs.map Global.member))))

def units : UnitRules where
  enclose c u declarations :=
    match u.namespaceName with
    | none => declarations
    | some space =>
      text "namespace " ++ c.qualified space ++ newline ++
        Brace.braced (declarations ++ lineStart)
  globals := globals
  docComment _ comment := Brace.docLines comment.lines
  conditionStart := Brace.conditionStart
  conditionEnd _ := Brace.conditionEnd
  attributeLine c a :=
    text "[" ++ c.typeRef a.type ++
      when (!a.arguments.isEmpty) (text "(" ++ Brace.arguments c a.arguments ++ text ")") ++
      line "]"

end CSharp

end SourcePrinter
