import SourcePrinter.Language.Context

/-! A language: the hooks that every language has, and a rule for each construct. A plain language
has the hooks only; its rules say what most languages have in common, and are gaps elsewhere. -/

namespace SourcePrinter

open Doc

/-- What every language has. -/
structure Hooks where
  /-- The name in messages. -/
  name : String
  /-- The extension of its files, without the dot. -/
  fileExtension : String
  keywords : KeywordSet
  /-- The spelling of a segment that collides with a reserved word. -/
  escape : List Char → List Char
  lineComment : String → Doc
  inlineComment : String → Doc
  importing : Context → Import → Doc

/-- The rules for what stands around declarations. -/
structure UnitRules where
  /-- The declarations of a unit inside its namespace. -/
  enclose : Context → CodeUnit → Doc → Doc
  globals : Context → List Global → Doc
  docComment : Hooks → Comment → Doc
  conditionStart : Context → Expression → Doc
  conditionEnd : Context → Doc
  attributeLine : Context → Attribute → Doc

/-- The rules for type definitions. -/
structure DefinitionRules where
  aliasType : Context → TypeDefinition → TypeRef → Doc
  enumeration : Context → TypeDefinition → Option TypeRef → List EnumCase → Doc
  classType : Context → TypeDefinition → ClassBody → Doc
  structType : Context → TypeDefinition → ClassBody → Doc
  interfaceType : Context → TypeDefinition → ClassBody → Doc
  extensionType : Context → TypeDefinition → ClassBody → Doc
  blockType : Context → TypeDefinition → List Parameter → Option TypeRef → Doc

/-- The rules for members and parameters. -/
structure MemberRules where
  constructor : Context → Member → MethodBody → Doc
  destructor : Context → Member → MethodBody → Doc
  finalizer : Context → Member → MethodBody → Doc
  method : Context → Member → MethodBody → Doc
  field : Context → Member → FieldMember → Doc
  property : Context → Member → PropertyMember → Doc
  event : Context → Member → EventMember → Doc
  customOperator : Context → Member → OverloadableOperator → MethodBody → Doc
  parameter : Context → Parameter → Doc

/-- The rules for statements. -/
structure StatementRules where
  block : Context → List Statement → Doc
  expression : Context → Expression → Doc
  declare : Context → VariableDeclaration → Doc
  assignment : Context → Expression → Expression → Doc
  conditional : Context → Expression → Statement → Option Statement → Doc
  whileLoop : Context → Expression → Statement → Doc
  doWhile : Context → Expression → Statement → Doc
  forTo : Context → CountingLoop → Doc
  forEach : Context → CollectionLoop → Doc
  switch : Context → Expression → List SwitchCase → Option (List Statement) → Doc
  tryCatch : Context → TryStatement → Doc
  throwing : Context → Option Expression → Doc
  returning : Context → Option Expression → Doc
  breakLoop : Context → Doc
  continueLoop : Context → Doc
  locking : Context → Expression → Statement → Doc
  resource : Context → UsingStatement → Doc
  empty : Context → Doc

/-- The rules for expressions. -/
structure ExpressionRules where
  nil : Context → Doc
  boolean : Context → Bool → Doc
  integer : Context → Int → Nat → Doc
  float : Context → Binary64 → Doc
  string : Context → String → Doc
  character : Context → Char → Doc
  array : Context → List Expression → Option TypeRef → Doc
  dictionary : Context → DictionaryLiteral → Doc
  tuple : Context → List Expression → Doc
  selfReference : Context → Doc
  inherited : Context → Doc
  field : Context → FieldAccess → Doc
  property : Context → PropertyAccess → Doc
  call : Context → MethodCall → Doc
  newInstance : Context → TypeRef → List Argument → Doc
  element : Context → Expression → List Expression → Doc
  enumValue : Context → TypeRef → String → Doc
  typeOf : Context → TypeRef → Doc
  sizeOf : Context → TypeRef → Doc
  defaultOf : Context → TypeRef → Doc
  typeCheck : Context → Expression → TypeRef → Doc
  typeCast : Context → TypeCast → Doc
  binary : Context → Expression → BinaryOperator → Expression → Doc
  unary : Context → UnaryOperator → Expression → Doc
  conditional : Context → Expression → Expression → Expression → Doc
  await : Context → Expression → Doc
  addressOf : Context → Expression → Doc
  dereference : Context → Expression → Doc
  range : Context → Expression → Expression → Bool → Doc
  anonymousMethod : Context → AnonymousMethod → Doc

/-- The rules for type references. They are given the reference with the nullability in force. -/
structure TypeRules where
  named : Context → TypeRef → NamedType → Doc
  predefined : Context → TypeRef → PredefinedType → Doc
  pointer : Context → TypeRef → TypeRef → PointerKind → Doc
  array : Context → TypeRef → TypeRef → List Bounds → ArrayKind → Doc
  dictionary : Context → TypeRef → TypeRef → TypeRef → Doc
  tuple : Context → TypeRef → List TypeRef → Doc
  sequence : Context → TypeRef → TypeRef → Doc
  kindOf : Context → TypeRef → TypeRef → Doc
  constant : Context → TypeRef → TypeRef → Doc
  inlineBlock : Context → TypeRef → InlineBlock → Doc
  unknown : Context → TypeRef → Doc

/-- A language that source can be written in. -/
structure Language where
  hooks : Hooks
  units : UnitRules
  definitions : DefinitionRules
  members : MemberRules
  statements : StatementRules
  expressions : ExpressionRules
  types : TypeRules

/-! ### Rules of a plain language -/

/-- Declarations stand in no namespace, globals are members, and doc comments are line comments. -/
def UnitRules.plain : UnitRules where
  enclose _ _ declarations := declarations
  globals c globals := concat (globals.map fun g => c.member g.member)
  docComment hooks comment := concat (comment.lines.map hooks.lineComment)
  conditionStart c _ := c.unsupported "conditional compilation"
  conditionEnd _ := .empty
  attributeLine c _ := c.unsupported "attribute"

/-- No definition of a type can be written. -/
def DefinitionRules.plain : DefinitionRules where
  aliasType c _ _ := c.unsupported "type alias"
  enumeration c _ _ _ := c.unsupported "enum type"
  classType c _ _ := c.unsupported "class type"
  structType c _ _ := c.unsupported "struct type"
  interfaceType c _ _ := c.unsupported "interface type"
  extensionType c _ _ := c.unsupported "extension type"
  blockType c _ _ _ := c.unsupported "block type"

/-- No member can be written. -/
def MemberRules.plain : MemberRules where
  constructor c _ _ := c.unsupported "constructor"
  destructor c _ _ := c.unsupported "destructor"
  finalizer c _ _ := c.unsupported "finalizer"
  method c _ _ := c.unsupported "method"
  field c _ _ := c.unsupported "field"
  property c _ _ := c.unsupported "property"
  event c _ _ := c.unsupported "event"
  customOperator c _ _ _ := c.unsupported "custom operator"
  parameter c _ := c.unsupported "parameter definition"

/-- A block is its statements and the empty statement is nothing; no other can be written. -/
def StatementRules.plain : StatementRules where
  block c statements := c.statements statements
  expression c _ := c.unsupported "expression statement"
  declare c _ := c.unsupported "variable declaration"
  assignment c _ _ := c.unsupported "assignment"
  conditional c _ _ _ := c.unsupported "if statement"
  whileLoop c _ _ := c.unsupported "while loop"
  doWhile c _ _ := c.unsupported "do-while loop"
  forTo c _ := c.unsupported "for-to loop"
  forEach c _ := c.unsupported "for-each loop"
  switch c _ _ _ := c.unsupported "switch statement"
  tryCatch c _ := c.unsupported "try statement"
  throwing c _ := c.unsupported "throw statement"
  returning c _ := c.unsupported "return statement"
  breakLoop c := c.unsupported "break statement"
  continueLoop c := c.unsupported "continue statement"
  locking c _ _ := c.unsupported "locking statement"
  resource c _ := c.unsupported "using statement"
  empty _ := .empty

/-- A value of an enumeration is its type, a dot and its name; no other rule is here. -/
def ExpressionRules.plain : ExpressionRules where
  nil c := c.unsupported "nil literal"
  boolean c _ := c.unsupported "boolean literal"
  integer c _ _ := c.unsupported "integer literal"
  float c _ := c.unsupported "float literal"
  string c _ := c.unsupported "string literal"
  character c _ := c.unsupported "character literal"
  array c _ _ := c.unsupported "array literal"
  dictionary c _ := c.unsupported "dictionary literal"
  tuple c _ := c.unsupported "tuple literal"
  selfReference c := c.unsupported "self reference"
  inherited c := c.unsupported "inherited reference"
  field c _ := c.unsupported "field access"
  property c _ := c.unsupported "property access"
  call c _ := c.unsupported "method call"
  newInstance c _ _ := c.unsupported "new instance"
  element c _ _ := c.unsupported "array element access"
  enumValue c type value := c.typeRef type ++ text "." ++ c.identifier value
  typeOf c _ := c.unsupported "typeof expression"
  sizeOf c _ := c.unsupported "sizeof expression"
  defaultOf c _ := c.unsupported "default expression"
  typeCheck c _ _ := c.unsupported "type check"
  typeCast c _ := c.unsupported "type cast"
  binary c _ _ _ := c.unsupported "binary operator"
  unary c _ _ := c.unsupported "unary operator"
  conditional c _ _ _ := c.unsupported "if-then-else expression"
  await c _ := c.unsupported "await expression"
  addressOf c _ := c.unsupported "address-of expression"
  dereference c _ := c.unsupported "pointer dereference"
  range c _ _ _ := c.unsupported "range expression"
  anonymousMethod c _ := c.unsupported "anonymous method"

/-- No type reference can be written. -/
def TypeRules.plain : TypeRules where
  named c _ _ := c.unsupported "named type"
  predefined c _ _ := c.unsupported "predefined type"
  pointer c _ _ _ := c.unsupported "pointer type"
  array c _ _ _ _ := c.unsupported "array type"
  dictionary c _ _ _ := c.unsupported "dictionary type"
  tuple c _ _ := c.unsupported "tuple type"
  sequence c _ _ := c.unsupported "sequence type"
  kindOf c _ _ := c.unsupported "kind-of type"
  constant c _ _ := c.unsupported "constant type"
  inlineBlock c _ _ := c.unsupported "inline block type"
  unknown c _ := c.unsupported "unknown type"

/-- The language with the given hooks and the plain rules. -/
def Language.plain (hooks : Hooks) : Language :=
  { hooks, units := .plain, definitions := .plain, members := .plain, statements := .plain,
    expressions := .plain, types := .plain }

end SourcePrinter
