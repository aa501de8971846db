import SourcePrinter.Syntax.Tree

/-! Declarations: type definitions with their members, and the unit that holds the declarations of
one file. -/

namespace SourcePrinter

/-- A mark on a declaration, perhaps compiled under a condition only. -/
structure Attribute where
  type : TypeRef
  arguments : List Argument
  condition : Option Expression

/-- A type parameter and the types that bound it. -/
structure GenericParameter where
  name : String
  constraints : List TypeRef

/-- What every declaration carries. -/
structure DeclarationInfo where
  visibility : Visibility
  /-- The condition under which the declaration is compiled. -/
  condition : Option Expression
  attributes : List Attribute
  comment : Option Comment

/-- A value of an enumeration. -/
structure EnumCase where
  name : String
  value : Option Expression
  comment : Option Comment

/-- The signature and the statements of a function. -/
structure MethodBody where
  genericParameters : List GenericParameter
  parameters : List Parameter
  returnType : Option TypeRef
  statements : List Statement
  isAsync : Bool
  throws : Bool
  /-- The function is defined elsewhere. -/
  external : Bool

/-- A field of a type. -/
structure FieldMember where
  type : Option TypeRef
  initializer : Option Expression
  constant : Bool
  readOnly : Bool

/-- A property; one with neither accessor is stored. -/
structure PropertyMember where
  type : TypeRef
  parameters : List Parameter
  getter : Option (List Statement)
  setter : Option (List Statement)
  readOnly : Bool
  initializer : Option Expression

namespace PropertyMember

/-- The property has no accessors of its own. -/
def isStored (p : PropertyMember) : Bool := p.getter.isNone && p.setter.isNone

/-- The property can be read. -/
def isReadable (p : PropertyMember) : Bool := p.isStored || p.getter.isSome

/-- The property can be assigned. -/
def isSettable (p : PropertyMember) : Bool :=
  if p.isStored then !p.readOnly else p.setter.isSome

end PropertyMember

/-- An event; its accessors may be given. -/
structure EventMember where
  type : TypeRef
  add : Option (List Statement)
  remove : Option (List Statement)

mutual

structure TypeDefinition where
  id : NodeId
  name : String
  info : DeclarationInfo
  form : TypeDefinitionForm

inductive TypeDefinitionForm where
  | aliasType (actual : TypeRef) (strict : Bool)
  | enumeration (base : Option TypeRef) (cases : List EnumCase)
  | classType (body : ClassBody)
  | structType (body : ClassBody)
  | interfaceType (body : ClassBody)
  | extensionType (body : ClassBody)
  | blockType (parameters : List Parameter) (returnType : Option TypeRef)

/-- What classes, structures, interfaces and extensions hold. -/
structure ClassBody where
  genericParameters : List GenericParameter
  ancestors : List TypeRef
  interfaces : List TypeRef
  members : List Member
  isStatic : Bool
  isSealed : Bool
  isAbstract : Bool
  isPartial : Bool

structure Member where
  id : NodeId
  name : String
  info : DeclarationInfo
  virtuality : Virtuality
  isStatic : Bool
  form : MemberForm

inductive MemberForm where
  | constructor (body : MethodBody)
  | destructor (body : MethodBody)
  | finalizer (body : MethodBody)
  | method (body : MethodBody)
  | field (field : FieldMember)
  | property (property : PropertyMember)
  | event (event : EventMember)
  | customOperator (operator : OverloadableOperator) (body : MethodBody)
  | nestedType (nested : TypeDefinition)

end

namespace Member

/-- The signature and statements of a function member. -/
def body? (m : Member) : Option MethodBody :=
  match m.form with
  | .constructor b | .destructor b | .finalizer b | .method b | .customOperator _ b => some b
  | _ => none

def isField (m : Member) : Bool :=
  match m.form with
  | .field _ => true
  | _ => false

/-- The member is a field that is fixed at compile time. -/
def isConstant (m : Member) : Bool :=
  match m.form with
  | .field f => f.constant
  | _ => false

end Member

namespace TypeDefinition

/-- The members of a type definition, in order. -/
def members (t : TypeDefinition) : List Member :=
  match t.form with
  | .classType c | .structType c | .interfaceType c | .extensionType c => c.members
  | _ => []

end TypeDefinition

/-- The use of another unit, perhaps compiled under a condition only. -/
structure Import where
  name : String
  isStatic : Bool
  condition : Option Expression

/-- A function or variable outside any type. -/
inductive Global where
  | function (member : Member)
  | variable (member : Member)

namespace Global

/-- The member that a global is rendered as. -/
def member : Global → Member
  | .function m | .variable m => m

/-- The global is a function. -/
def isFunction : Global → Bool
  | .function _ => true
  | .variable _ => false

end Global

/-- The declarations of one file. -/
structure CodeUnit where
  id : NodeId
  fileName : Option String
  namespaceName : Option String
  headerComment : Option Comment
  imports : List Import
  globals : List Global
  types : List TypeDefinition

end SourcePrinter
