import SourcePrinter.Language.Statements.Swift

/-! Declarations of Swift: types and members. -/

namespace SourcePrinter

namespace Swift

open Doc

/-! ### Modifiers -/

def visibilityWord : Visibility → Option String
  | .unspecified => none
  | .hidden => some "private"
  | .unit => some "fileprivate"
  | .assembly | .inherited => some "internal"
  | .everyone => some "public"

/-- The word for a visibility and a space, or nothing. -/
def visibility (v : Visibility) : Doc :=
  whenSome (visibilityWord v) fun w => text w ++ text " "

def virtualityWords : Virtuality → Doc
  | .override => text "override "
  | .final => text "override final "
  | .none | .virtual | .abstract => .empty

/-- Visibility, `static`, `override` and `final` of a member. In a protocol only `static` is there,
and outside any type it is not. -/
def memberModifiers (m : Member) : Doc :=
  perScope fun scope =>
    let required := scope.any TypeScope.isInterface
    when (!required) (visibility m.info.visibility) ++
      when ((m.isStatic || scope.any TypeScope.isStatic) && scope.isSome) (text "static ") ++
      when (!required) (virtualityWords m.virtuality)

/-! ### Functions -/

/-- A type parameter with its bounds. -/
def genericParameter (c : Context) (p : GenericParameter) : Doc :=
  c.identifier p.name ++
    when (!p.constraints.isEmpty)
      (text ": " ++ separated " & " (p.constraints.map (presentType c)))

/-- Type parameters with their bounds between angle brackets; nothing when there are none. -/
def genericParameters (c : Context) (ps : List GenericParameter) : Doc :=
  when (!ps.isEmpty) (text "<" ++ commaList (ps.map (genericParameter c)) ++ text ">")

/-- The statements of a function, or the end of the line where it has none. -/
def functionBody (c : Context) (body : MethodBody) : Doc :=
  perScope fun scope =>
    if c.setting.definitionOnly || body.external || scope.any TypeScope.isInterface then newline
    else openStatements c body.statements ++ newline

def constructor (c : Context) (m : Member) (body : MethodBody) : Doc :=
  perScope (fun scope =>
      when (!scope.any TypeScope.isInterface) (visibility m.info.visibility)) ++
    when (m.virtuality == .override) (text "override ") ++ text "init" ++
    Brace.parameterList c body.parameters ++ when body.throws (text " throws") ++
    functionBody c body

def destructor (c : Context) (body : MethodBody) : Doc := text "deinit" ++ functionBody c body

def method (c : Context) (m : Member) (body : MethodBody) : Doc :=
  memberModifiers m ++ text "func " ++ c.identifier m.name ++
    genericParameters c body.genericParameters ++ Brace.parameterList c body.parameters ++
    when body.isAsync (text " async") ++ when body.throws (text " throws") ++
    returnClause c body.returnType ++ functionBody c body

/-- The symbol of an operator; conversions have none. -/
def operatorSymbol : OverloadableOperator → Option String
  | .plus => some "+"
  | .minus => some "-"
  | .multiply => some "*"
  | .divide => some "/"
  | .modulus => some "%"
  | .equals => some "=="
  | .notEquals => some "!="
  | .lessThan => some "<"
  | .lessThanOrEqual => some "<="
  | .greaterThan => some ">"
  | .greaterThanOrEqual => some ">="
  | .not => some "!"
  | .bitwiseNot => some "~"
  | .implicitConversion | .explicitConversion => none

def customOperator (c : Context) (operator : OverloadableOperator) (body : MethodBody) : Doc :=
  match operatorSymbol operator with
  | none => c.unsupported "custom operator" operator.name
  | some symbol =>
    text "static func " ++ text symbol ++ text " " ++ Brace.parameterList c body.parameters ++
      returnClause c body.returnType ++ functionBody c body

/-- A parameter with its label. One passed by reference is `inout`, and a variadic one ends in three
dots. -/
def parameter (c : Context) (p : Parameter) : Doc :=
  whenSome p.externalName (fun label => c.identifier label ++ text " ") ++ c.identifier p.name ++
    text ": " ++ when (p.modifier == .out || p.modifier == .byReference) (text "inout ") ++
    c.typeRef p.type ++ when (p.modifier == .variadic) (text "...") ++
    whenSome p.default fun e => text " = " ++ c.expression e

/-! ### Fields and properties -/

/-- A stored value; without type and value it cannot be written. -/
def field (c : Context) (m : Member) (f : FieldMember) : Doc :=
  if f.type.isNone && f.initializer.isNone then
    c.unsupported "field" "neither a type nor an initializer"
  else
    memberModifiers m ++ text (bindingWord (f.constant || f.readOnly)) ++ text " " ++
      c.identifier m.name ++ typeAndValue c f.type f.initializer ++ newline

/-- The head of a property, which is a subscript when it has parameters. -/
def propertyHead (c : Context) (m : Member) (p : PropertyMember) : Doc :=
  memberModifiers m ++
    (if p.parameters.isEmpty then text "var " ++ c.identifier m.name ++ text ": "
      else text "subscript" ++ Brace.parameterList c p.parameters ++ text " -> ") ++
    c.typeRef p.type

/-- An accessor with its statements. -/
def accessor (c : Context) (keyword : String) (ss : List Statement) : Doc :=
  text keyword ++ openStatements c ss ++ newline

/-- A property or subscript. -/
def property (c : Context) (m : Member) (p : PropertyMember) : Doc :=
  propertyHead c m p ++
    perScope fun scope =>
      if scope.any TypeScope.isInterface || (c.setting.definitionOnly && !p.isStored) then
        line (if p.isSettable then " \x7b get set \x7d" else " \x7b get \x7d")
      else if p.isStored then
        whenSome p.initializer (fun e => text " = " ++ c.expression e) ++ newline
      else
        braces (whenSome p.getter (accessor c "get") ++ whenSome p.setter (accessor c "set")) ++
          newline

/-- The rules for members. A finalizer is a deinitializer, and there are no events. -/
def members : MemberRules where
  constructor := constructor
  destructor c _ body := destructor c body
  finalizer c _ body := destructor c body
  method := method
  field := field
  property := property
  event := MemberRules.plain.event
  customOperator c _ operator body := customOperator c operator body
  parameter := parameter

/-! ### Types -/

/-- The types that a type builds on; nothing when there are none. -/
def baseList (c : Context) (bases : List TypeRef) : Doc :=
  when (!bases.isEmpty) (text ": " ++ commaList (bases.map (presentType c)))

/-- Members in order, parted by blank lines. -/
def memberList (c : Context) : List Member → Doc
  | [] => .empty
  | [m] => c.member m
  | m :: next :: more => c.member m ++ newline ++ memberList c (next :: more)

/-- A class, structure or protocol, which the given words introduce. -/
def classLike (c : Context) (words : Doc) (t : TypeDefinition) (body : ClassBody) : Doc :=
  visibility t.info.visibility ++ words ++ text " " ++ c.identifier t.name ++
    genericParameters c body.genericParameters ++ baseList c (body.ancestors ++ body.interfaces) ++
    braces (memberList c body.members) ++ newline

/-- A class, which may be closed to further ones. -/
def classType (c : Context) (t : TypeDefinition) (body : ClassBody) : Doc :=
  classLike c (when body.isSealed (text "final ") ++ text "class") t body

/-- An extension of the first ancestor, or of the type of its own name. -/
def extensionType (c : Context) (t : TypeDefinition) (body : ClassBody) : Doc :=
  visibility t.info.visibility ++ text "extension " ++
    (match body.ancestors with
      | target :: _ => presentType c target
      | [] => c.identifier t.name) ++
    baseList c body.interfaces ++ braces (memberList c body.members) ++ newline

def enumCase (c : Context) (lowercaseCases : Bool) (v : EnumCase) : Doc :=
  whenSome v.comment c.docComment ++ text "case " ++
    c.identifier (caseName lowercaseCases v.name) ++
    whenSome v.value (fun e => text " = " ++ c.expression e) ++ newline

def definitions (lowercaseCases : Bool) : DefinitionRules where
  aliasType c t actual :=
    visibility t.info.visibility ++ text "typealias " ++ c.identifier t.name ++ text " = " ++
      c.typeRef actual ++ newline
  enumeration c t base cases :=
    visibility t.info.visibility ++ text "enum" ++ text " " ++ c.identifier t.name ++
      baseList c base.toList ++ braces (concat (cases.map (enumCase c lowercaseCases))) ++ newline
  classType := classType
  structType c t body := classLike c (text "struct") t body
  interfaceType c t body := classLike c (text "protocol") t body
  extensionType := extensionType
  blockType c t parameters result :=
    visibility t.info.visibility ++ text "typealias " ++ c.identifier t.name ++ text " = (" ++
      commaList (parameters.map fun p => c.typeRef p.type) ++ text ") -> " ++
      resultType c result ++ newline

/-- The rules for units: there are no namespaces, and globals are members of nothing. -/
def units : UnitRules where
  enclose := UnitRules.plain.enclose
  globals := UnitRules.plain.globals
  docComment _ comment := Brace.docLines comment.lines
  conditionStart := Brace.conditionStart
  conditionEnd _ := Brace.conditionEnd
  attributeLine c a :=
    text "@" ++ presentType c a.type ++
      when (!a.arguments.isEmpty) (text "(" ++ Brace.arguments c a.arguments ++ text ")") ++
      newline

end Swift

end SourcePrinter
