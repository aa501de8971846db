import SourcePrinter.Syntax.Declaration

/-! The number of nodes in a tree, which bounds how deep a rendering descends. Default values of
type references count, since they can be rendered. -/

namespace SourcePrinter

mutual

def Expression.size : Expression → Nat
  | ⟨_, form⟩ => form.size + 1

def ExpressionForm.size : ExpressionForm → Nat
  | .nil | .boolean _ | .integer .. | .float _ | .string _ | .character _ | .selfReference
  | .inherited | .result | .identifier _ | .localVariable _ | .raw _ => 0
  | .array elements elementType => sizeExpressions elements + sizeTypeRef? elementType
  | .dictionary literal => literal.size
  | .tuple members => sizeExpressions members
  | .field access => access.size
  | .property access => access.size
  | .call call => call.size
  | .newInstance type arguments => type.size + sizeArguments arguments
  | .element array indices => array.size + sizeExpressions indices
  | .enumValue type _ | .typeReference type | .typeOf type | .sizeOf type | .defaultOf type =>
    type.size
  | .typeCheck value type => value.size + type.size
  | .typeCast cast => cast.size
  | .binary lhs _ rhs => lhs.size + rhs.size
  | .unary _ value => value.size
  | .conditional condition ifTrue ifFalse => condition.size + ifTrue.size + ifFalse.size
  | .parentheses inner | .await inner | .addressOf inner | .dereference inner => inner.size
  | .range start stop _ => start.size + stop.size
  | .anonymousMethod method => method.size

def DictionaryLiteral.size : DictionaryLiteral → Nat
  | ⟨keys, values, keyType, valueType⟩ =>
    sizeExpressions keys + sizeExpressions values + sizeTypeRef? keyType + sizeTypeRef? valueType

def FieldAccess.size : FieldAccess → Nat
  | ⟨site, _, _⟩ => sizeExpression? site

def PropertyAccess.size : PropertyAccess → Nat
  | ⟨site, _, arguments, _⟩ => sizeExpression? site + sizeArguments arguments

def MethodCall.size : MethodCall → Nat
  | ⟨site, _, genericArguments, arguments, _⟩ =>
    sizeExpression? site + sizeTypeRefs genericArguments + sizeArguments arguments

def TypeCast.size : TypeCast → Nat
  | ⟨value, type, _⟩ => value.size + type.size

def AnonymousMethod.size : AnonymousMethod → Nat
  | ⟨parameters, returnType, statements⟩ =>
    sizeParameters parameters + sizeTypeRef? returnType + sizeStatements statements

def Argument.size : Argument → Nat
  | ⟨value, _, _⟩ => value.size

def Parameter.size : Parameter → Nat
  | ⟨_, _, _, type, _, default⟩ => type.size + sizeExpression? default + 1

def TypeRef.size : TypeRef → Nat
  | ⟨_, form, _, _, _, defaultValue⟩ => form.size + sizeExpression? defaultValue + 1

def TypeForm.size : TypeForm → Nat
  | .named type => type.size
  | .predefined _ | .unknown => 0
  | .pointer target _ | .kindOf target | .constant target => target.size
  | .array element _ _ | .sequence element => element.size
  | .dictionary key value => key.size + value.size
  | .tuple members => sizeTypeRefs members
  | .inlineBlock block => block.size
  | .range start stop => start.size + stop.size

def NamedType.size : NamedType → Nat
  | ⟨_, _, genericArguments⟩ => sizeTypeRefs genericArguments

def InlineBlock.size : InlineBlock → Nat
  | ⟨parameters, returnType, _⟩ => sizeTypeRefs parameters + sizeTypeRef? returnType

def Statement.size : Statement → Nat
  | ⟨_, form⟩ => form.size + 1

def StatementForm.size : StatementForm → Nat
  | .block statements => sizeStatements statements
  | .expression value => value.size
  | .declare declaration => declaration.size
  | .assignment target value => target.size + value.size
  | .conditional condition thenBranch elseBranch =>
    condition.size + thenBranch.size + sizeStatement? elseBranch
  | .whileLoop condition body | .doWhile condition body => condition.size + body.size
  | .infiniteLoop body => body.size
  | .forTo loop => loop.size
  | .forEach loop => loop.size
  | .switch value cases default => value.size + sizeCases cases + sizeStatements? default
  | .tryCatch attempt => attempt.size
  | .throwing value | .returning value => sizeExpression? value
  | .locking value body => value.size + body.size
  | .using resource => resource.size
  | .breakLoop | .continueLoop | .comment _ | .empty | .raw _ => 0

def VariableDeclaration.size : VariableDeclaration → Nat
  | ⟨_, type, value, _, _⟩ => sizeTypeRef? type + sizeExpression? value

def CountingLoop.size : CountingLoop → Nat
  | ⟨_, type, start, stop, step, _, body⟩ =>
    sizeTypeRef? type + start.size + stop.size + sizeExpression? step + body.size

def CollectionLoop.size : CollectionLoop → Nat
  | ⟨_, type, collection, body⟩ => sizeTypeRef? type + collection.size + body.size

def SwitchCase.size : SwitchCase → Nat
  | ⟨labels, statements⟩ => sizeExpressions labels + sizeStatements statements

def TryStatement.size : TryStatement → Nat
  | ⟨statements, catches, cleanup⟩ =>
    sizeStatements statements + sizeCatches catches + sizeStatements? cleanup

def CatchBlock.size : CatchBlock → Nat
  | ⟨_, type, statements⟩ => sizeTypeRef? type + sizeStatements statements

def UsingStatement.size : UsingStatement → Nat
  | ⟨_, type, value, body⟩ => sizeTypeRef? type + value.size + body.size

def sizeExpression? : Option Expression → Nat
  | none => 0
  | some e => e.size

def sizeExpressions : List Expression → Nat
  | [] => 0
  | e :: more => e.size + sizeExpressions more

def sizeArguments : List Argument → Nat
  | [] => 0
  | a :: more => a.size + sizeArguments more

def sizeParameters : List Parameter → Nat
  | [] => 0
  | p :: more => p.size + sizeParameters more

def sizeTypeRef? : Option TypeRef → Nat
  | none => 0
  | some t => t.size

def sizeTypeRefs : List TypeRef → Nat
  | [] => 0
  | t :: more => t.size + sizeTypeRefs more

def sizeStatement? : Option Statement → Nat
  | none => 0
  | some s => s.size

def sizeStatements : List Statement → Nat
  | [] => 0
  | s :: more => s.size + sizeStatements more

def sizeStatements? : Option (List Statement) → Nat
  | none => 0
  | some statements => sizeStatements statements

def sizeCases : List SwitchCase → Nat
  | [] => 0
  | c :: more => c.size + sizeCases more

def sizeCatches : List CatchBlock → Nat
  | [] => 0
  | c :: more => c.size + sizeCatches more

end

def Attribute.size (a : Attribute) : Nat :=
  a.type.size + sizeArguments a.arguments + sizeExpression? a.condition

def GenericParameter.size (g : GenericParameter) : Nat := sizeTypeRefs g.constraints

def sizeAll {α : Type} (size : α → Nat) (items : List α) : Nat :=
  items.foldr (fun a total => size a + total) 0

def sizeGenericParameters (gs : List GenericParameter) : Nat := sizeAll GenericParameter.size gs

def DeclarationInfo.size (info : DeclarationInfo) : Nat :=
  sizeExpression? info.condition + sizeAll Attribute.size info.attributes

def EnumCase.size (c : EnumCase) : Nat := sizeExpression? c.value

def MethodBody.size (b : MethodBody) : Nat :=
  sizeGenericParameters b.genericParameters + sizeParameters b.parameters +
    sizeTypeRef? b.returnType + sizeStatements b.statements

def FieldMember.size (f : FieldMember) : Nat :=
  sizeTypeRef? f.type + sizeExpression? f.initializer

def PropertyMember.size (p : PropertyMember) : Nat :=
  p.type.size + sizeParameters p.parameters + sizeStatements? p.getter + sizeStatements? p.setter +
    sizeExpression? p.initializer

def EventMember.size (e : EventMember) : Nat :=
  e.type.size + sizeStatements? e.add + sizeStatements? e.remove

mutual

def TypeDefinition.size : TypeDefinition → Nat
  | ⟨_, _, info, form⟩ => info.size + form.size + 1

def TypeDefinitionForm.size : TypeDefinitionForm → Nat
  | .aliasType actual _ => actual.size
  | .enumeration base cases => sizeTypeRef? base + sizeAll EnumCase.size cases
  | .classType body | .structType body | .interfaceType body | .extensionType body => body.size
  | .blockType parameters returnType => sizeParameters parameters + sizeTypeRef? returnType

def ClassBody.size : ClassBody → Nat
  | ⟨genericParameters, ancestors, interfaces, members, _, _, _, _⟩ =>
    sizeGenericParameters genericParameters + sizeTypeRefs ancestors + sizeTypeRefs interfaces +
      sizeMembers members

def Member.size : Member → Nat
  | ⟨_, _, info, _, _, form⟩ => info.size + form.size + 1

def MemberForm.size : MemberForm → Nat
  | .constructor body | .destructor body | .finalizer body | .method body
  | .customOperator _ body => body.size
  | .field field => field.size
  | .property property => property.size
  | .event event => event.size
  | .nestedType nested => nested.size

def sizeMembers : List Member → Nat
  | [] => 0
  | m :: more => m.size + sizeMembers more

end

def Import.size (i : Import) : Nat := sizeExpression? i.condition

def CodeUnit.size (u : CodeUnit) : Nat :=
  sizeAll Import.size u.imports + sizeAll (fun g => g.member.size) u.globals +
    sizeAll TypeDefinition.size u.types + 1

end SourcePrinter
