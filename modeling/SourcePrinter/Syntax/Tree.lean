import SourcePrinter.Number.Binary64
import SourcePrinter.Syntax.Modifier
import SourcePrinter.Syntax.Operator
import SourcePrinter.Text.Lines

/-! Expressions, statements and type references. Every node has a number that tells it from the
other nodes of its category; the spans of a rendering are kept under these numbers. The numbers
play no part in what is written. -/

namespace SourcePrinter

/-- The number of a node. -/
abbrev NodeId := Nat

/-- The number of the nodes that belong to no tree: the condition of a loop without one and the
built-in default values of types. They are rendered without spans. -/
def NodeId.detached : NodeId := 0

mutual

structure Expression where
  id : NodeId
  form : ExpressionForm

inductive ExpressionForm where
  | nil
  | boolean (value : Bool)
  | integer (value : Int) (base : Nat)
  | float (value : Binary64)
  | string (text : String)
  | character (value : Char)
  | array (elements : List Expression) (elementType : Option TypeRef)
  | dictionary (literal : DictionaryLiteral)
  | tuple (members : List Expression)
  | selfReference
  | inherited
  | result
  | identifier (name : String)
  | localVariable (name : String)
  | field (access : FieldAccess)
  | property (access : PropertyAccess)
  | call (call : MethodCall)
  | newInstance (type : TypeRef) (arguments : List Argument)
  | element (array : Expression) (indices : List Expression)
  | enumValue (type : TypeRef) (value : String)
  | typeReference (type : TypeRef)
  | typeOf (type : TypeRef)
  | sizeOf (type : TypeRef)
  | defaultOf (type : TypeRef)
  | typeCheck (value : Expression) (type : TypeRef)
  | typeCast (cast : TypeCast)
  | binary (lhs : Expression) (operator : BinaryOperator) (rhs : Expression)
  | unary (operator : UnaryOperator) (value : Expression)
  | conditional (condition ifTrue ifFalse : Expression)
  | parentheses (inner : Expression)
  | await (inner : Expression)
  | addressOf (inner : Expression)
  | dereference (inner : Expression)
  | range (start stop : Expression) (inclusive : Bool)
  | anonymousMethod (method : AnonymousMethod)
  | raw (text : String)

/-- A dictionary literal: keys and values in order. -/
structure DictionaryLiteral where
  keys : List Expression
  values : List Expression
  keyType : Option TypeRef
  valueType : Option TypeRef

/-- A field of a value, or of the current scope. -/
structure FieldAccess where
  site : Option Expression
  name : String
  nullSafe : Bool

/-- A property of a value, or of the current scope; with arguments it is indexed. -/
structure PropertyAccess where
  site : Option Expression
  name : String
  arguments : List Argument
  nullSafe : Bool

/-- A call of a method of a value, or of the current scope. -/
structure MethodCall where
  site : Option Expression
  name : String
  genericArguments : List TypeRef
  arguments : List Argument
  nullSafe : Bool

/-- A cast, which throws on failure or gives an absent value. -/
structure TypeCast where
  value : Expression
  type : TypeRef
  throws : Bool

/-- A function without a name. -/
structure AnonymousMethod where
  parameters : List Parameter
  returnType : Option TypeRef
  statements : List Statement

/-- An argument of a call, with a label or without. -/
structure Argument where
  value : Expression
  label : Option String
  modifier : ParameterModifier

/-- A parameter of a function. -/
structure Parameter where
  id : NodeId
  name : String
  externalName : Option String
  type : TypeRef
  modifier : ParameterModifier
  default : Option Expression

structure TypeRef where
  id : NodeId
  form : TypeForm
  /-- The nullability asked for, `default` when none was. -/
  explicit : Nullability
  /-- The nullability when none was asked for. -/
  implied : Nullability
  /-- The type is held by reference. -/
  isClass : Bool
  /-- What a slot of this type holds when nothing was stored. -/
  defaultValue : Option Expression

inductive TypeForm where
  | named (type : NamedType)
  | predefined (type : PredefinedType)
  | pointer (target : TypeRef) (kind : PointerKind)
  | array (element : TypeRef) (bounds : List Bounds) (kind : ArrayKind)
  | dictionary (key value : TypeRef)
  | tuple (members : List TypeRef)
  | sequence (element : TypeRef)
  | kindOf (target : TypeRef)
  | constant (target : TypeRef)
  | inlineBlock (block : InlineBlock)
  | range (start stop : Expression)
  | unknown

/-- A type referred to by name. -/
structure NamedType where
  name : String
  namespaceName : Option String
  genericArguments : List TypeRef

structure InlineBlock where
  parameters : List TypeRef
  returnType : Option TypeRef
  kind : BlockKind

structure Statement where
  id : NodeId
  form : StatementForm

inductive StatementForm where
  | block (statements : List Statement)
  | expression (value : Expression)
  | declare (declaration : VariableDeclaration)
  | assignment (target value : Expression)
  | conditional (condition : Expression) (thenBranch : Statement) (elseBranch : Option Statement)
  | whileLoop (condition : Expression) (body : Statement)
  | doWhile (condition : Expression) (body : Statement)
  | infiniteLoop (body : Statement)
  | forTo (loop : CountingLoop)
  | forEach (loop : CollectionLoop)
  | switch (value : Expression) (cases : List SwitchCase) (default : Option (List Statement))
  | tryCatch (attempt : TryStatement)
  | throwing (value : Option Expression)
  | returning (value : Option Expression)
  | breakLoop
  | continueLoop
  | locking (value : Expression) (body : Statement)
  | using (resource : UsingStatement)
  | comment (comment : Comment)
  | empty
  | raw (text : String)

structure VariableDeclaration where
  name : String
  type : Option TypeRef
  value : Option Expression
  constant : Bool
  readOnly : Bool

/-- A loop that counts from one value to another. -/
structure CountingLoop where
  counter : String
  type : Option TypeRef
  start : Expression
  stop : Expression
  step : Option Expression
  direction : Direction
  body : Statement

/-- A loop over the elements of a collection. -/
structure CollectionLoop where
  element : String
  type : Option TypeRef
  collection : Expression
  body : Statement

/-- The statements to run for some values of a switch. -/
structure SwitchCase where
  labels : List Expression
  statements : List Statement

/-- Statements with handlers and statements to run at the end. -/
structure TryStatement where
  statements : List Statement
  catches : List CatchBlock
  cleanup : Option (List Statement)

/-- A handler of exceptions. -/
structure CatchBlock where
  name : Option String
  type : Option TypeRef
  statements : List Statement

/-- A resource that is released at the end of a statement. -/
structure UsingStatement where
  name : String
  type : Option TypeRef
  value : Expression
  body : Statement

end

namespace Expression

/-- An expression that is no node of a tree. -/
def detached (form : ExpressionForm) : Expression := ⟨.detached, form⟩

/-- Literals and names hold no other expression. -/
def isLeaf (e : Expression) : Bool :=
  match e.form with
  | .nil | .boolean _ | .integer .. | .float _ | .string _ | .character _ | .selfReference
  | .inherited | .result | .identifier _ | .localVariable _ | .raw _ => true
  | _ => false

end Expression

namespace Statement

/-- Control does not reach the end of the statement. -/
def isJump (s : Statement) : Bool :=
  match s.form with
  | .returning _ | .throwing _ | .breakLoop | .continueLoop => true
  | _ => false

/-- The statement is a conditional. -/
def isConditional (s : Statement) : Bool :=
  match s.form with
  | .conditional .. => true
  | _ => false

end Statement

instance : Inhabited Expression := ⟨.detached .nil⟩

end SourcePrinter
