import SourcePrinter.Syntax.Declaration

/-! When two trees say the same: the numbers of their nodes do not count, and floating-point
literals are compared as numbers, so a tree that holds an undefined one is not the same as
itself. -/

namespace SourcePrinter

mutual

def Expression.same : Expression → Expression → Bool
  | ⟨_, form⟩, ⟨_, form'⟩ => form.same form'
termination_by structural tree => tree

def ExpressionForm.same : ExpressionForm → ExpressionForm → Bool
  | .nil, other => match other with | .nil => true | _ => false
  | .boolean a, other => match other with | .boolean b => a == b | _ => false
  | .integer a base, other =>
    match other with | .integer b base' => a == b && base == base' | _ => false
  | .float a, other => match other with | .float b => a.equal b | _ => false
  | .string a, other => match other with | .string b => a == b | _ => false
  | .character a, other => match other with | .character b => a == b | _ => false
  | .array a t, other =>
    match other with | .array b t' => sameExpressions a b && sameTypeRef? t t' | _ => false
  | .dictionary a, other => match other with | .dictionary b => a.same b | _ => false
  | .tuple a, other => match other with | .tuple b => sameExpressions a b | _ => false
  | .selfReference, other => match other with | .selfReference => true | _ => false
  | .inherited, other => match other with | .inherited => true | _ => false
  | .result, other => match other with | .result => true | _ => false
  | .identifier a, other => match other with | .identifier b => a == b | _ => false
  | .localVariable a, other => match other with | .localVariable b => a == b | _ => false
  | .field a, other => match other with | .field b => a.same b | _ => false
  | .property a, other => match other with | .property b => a.same b | _ => false
  | .call a, other => match other with | .call b => a.same b | _ => false
  | .newInstance t a, other =>
    match other with | .newInstance t' b => t.same t' && sameArguments a b | _ => false
  | .element a i, other =>
    match other with | .element b i' => a.same b && sameExpressions i i' | _ => false
  | .enumValue t a, other => match other with | .enumValue t' b => t.same t' && a == b | _ => false
  | .typeReference t, other => match other with | .typeReference t' => t.same t' | _ => false
  | .typeOf t, other => match other with | .typeOf t' => t.same t' | _ => false
  | .sizeOf t, other => match other with | .sizeOf t' => t.same t' | _ => false
  | .defaultOf t, other => match other with | .defaultOf t' => t.same t' | _ => false
  | .typeCheck a t, other =>
    match other with | .typeCheck b t' => a.same b && t.same t' | _ => false
  | .typeCast a, other => match other with | .typeCast b => a.same b | _ => false
  | .binary a op b, other =>
    match other with | .binary a' op' b' => a.same a' && op == op' && b.same b' | _ => false
  | .unary op a, other => match other with | .unary op' b => op == op' && a.same b | _ => false
  | .conditional a b c, other =>
    match other with | .conditional a' b' c' => a.same a' && b.same b' && c.same c' | _ => false
  | .parentheses a, other => match other with | .parentheses b => a.same b | _ => false
  | .await a, other => match other with | .await b => a.same b | _ => false
  | .addressOf a, other => match other with | .addressOf b => a.same b | _ => false
  | .dereference a, other => match other with | .dereference b => a.same b | _ => false
  | .range a b i, other =>
    match other with | .range a' b' i' => a.same a' && b.same b' && i == i' | _ => false
  | .anonymousMethod a, other => match other with | .anonymousMethod b => a.same b | _ => false
  | .raw a, other => match other with | .raw b => a == b | _ => false
termination_by structural tree => tree

def DictionaryLiteral.same : DictionaryLiteral → DictionaryLiteral → Bool
  | ⟨k, v, kt, vt⟩, ⟨k', v', kt', vt'⟩ =>
    sameExpressions k k' && sameExpressions v v' && sameTypeRef? kt kt' && sameTypeRef? vt vt'
termination_by structural tree => tree

def FieldAccess.same : FieldAccess → FieldAccess → Bool
  | ⟨s, n, safe⟩, ⟨s', n', safe'⟩ => sameExpression? s s' && n == n' && safe == safe'
termination_by structural tree => tree

def PropertyAccess.same : PropertyAccess → PropertyAccess → Bool
  | ⟨s, n, a, safe⟩, ⟨s', n', a', safe'⟩ =>
    sameExpression? s s' && n == n' && sameArguments a a' && safe == safe'
termination_by structural tree => tree

def MethodCall.same : MethodCall → MethodCall → Bool
  | ⟨s, n, g, a, safe⟩, ⟨s', n', g', a', safe'⟩ =>
    sameExpression? s s' && n == n' && sameTypeRefs g g' && sameArguments a a' && safe == safe'
termination_by structural tree => tree

def TypeCast.same : TypeCast → TypeCast → Bool
  | ⟨v, t, throws⟩, ⟨v', t', throws'⟩ => v.same v' && t.same t' && throws == throws'
termination_by structural tree => tree

def AnonymousMethod.same : AnonymousMethod → AnonymousMethod → Bool
  | ⟨p, r, s⟩, ⟨p', r', s'⟩ => sameParameters p p' && sameTypeRef? r r' && sameStatements s s'
termination_by structural tree => tree

def Argument.same : Argument → Argument → Bool
  | ⟨v, l, m⟩, ⟨v', l', m'⟩ => v.same v' && l == l' && m == m'
termination_by structural tree => tree

def Parameter.same : Parameter → Parameter → Bool
  | ⟨_, n, x, t, m, d⟩, ⟨_, n', x', t', m', d'⟩ =>
    n == n' && x == x' && t.same t' && m == m' && sameExpression? d d'
termination_by structural tree => tree

def TypeRef.same : TypeRef → TypeRef → Bool
  | ⟨_, f, e, i, c, d⟩, ⟨_, f', e', i', c', d'⟩ =>
    f.same f' && e == e' && i == i' && c == c' && sameExpression? d d'
termination_by structural tree => tree

def TypeForm.same : TypeForm → TypeForm → Bool
  | .named a, other => match other with | .named b => a.same b | _ => false
  | .predefined a, other => match other with | .predefined b => a == b | _ => false
  | .pointer t k, other => match other with | .pointer t' k' => t.same t' && k == k' | _ => false
  | .array t b k, other =>
    match other with | .array t' b' k' => t.same t' && b == b' && k == k' | _ => false
  | .dictionary k v, other =>
    match other with | .dictionary k' v' => k.same k' && v.same v' | _ => false
  | .tuple a, other => match other with | .tuple b => sameTypeRefs a b | _ => false
  | .sequence a, other => match other with | .sequence b => a.same b | _ => false
  | .kindOf a, other => match other with | .kindOf b => a.same b | _ => false
  | .constant a, other => match other with | .constant b => a.same b | _ => false
  | .inlineBlock a, other => match other with | .inlineBlock b => a.same b | _ => false
  | .range a b, other => match other with | .range a' b' => a.same a' && b.same b' | _ => false
  | .unknown, other => match other with | .unknown => true | _ => false
termination_by structural tree => tree

def NamedType.same : NamedType → NamedType → Bool
  | ⟨n, s, g⟩, ⟨n', s', g'⟩ => n == n' && s == s' && sameTypeRefs g g'
termination_by structural tree => tree

def InlineBlock.same : InlineBlock → InlineBlock → Bool
  | ⟨p, r, k⟩, ⟨p', r', k'⟩ => sameTypeRefs p p' && sameTypeRef? r r' && k == k'
termination_by structural tree => tree

def Statement.same : Statement → Statement → Bool
  | ⟨_, form⟩, ⟨_, form'⟩ => form.same form'
termination_by structural tree => tree

def StatementForm.same : StatementForm → StatementForm → Bool
  | .block a, other => match other with | .block b => sameStatements a b | _ => false
  | .expression a, other => match other with | .expression b => a.same b | _ => false
  | .declare a, other => match other with | .declare b => a.same b | _ => false
  | .assignment t v, other =>
    match other with | .assignment t' v' => t.same t' && v.same v' | _ => false
  | .conditional c a b, other =>
    match other with
    | .conditional c' a' b' => c.same c' && a.same a' && sameStatement? b b'
    | _ => false
  | .whileLoop c a, other =>
    match other with | .whileLoop c' b => c.same c' && a.same b | _ => false
  | .doWhile c a, other => match other with | .doWhile c' b => c.same c' && a.same b | _ => false
  | .infiniteLoop a, other => match other with | .infiniteLoop b => a.same b | _ => false
  | .forTo a, other => match other with | .forTo b => a.same b | _ => false
  | .forEach a, other => match other with | .forEach b => a.same b | _ => false
  | .switch v c d, other =>
    match other with
    | .switch v' c' d' => v.same v' && sameCases c c' && sameStatements? d d'
    | _ => false
  | .tryCatch a, other => match other with | .tryCatch b => a.same b | _ => false
  | .throwing a, other => match other with | .throwing b => sameExpression? a b | _ => false
  | .returning a, other => match other with | .returning b => sameExpression? a b | _ => false
  | .breakLoop, other => match other with | .breakLoop => true | _ => false
  | .continueLoop, other => match other with | .continueLoop => true | _ => false
  | .locking v a, other => match other with | .locking v' b => v.same v' && a.same b | _ => false
  | .using a, other => match other with | .using b => a.same b | _ => false
  | .comment a, other => match other with | .comment b => a == b | _ => false
  | .empty, other => match other with | .empty => true | _ => false
  | .raw a, other => match other with | .raw b => a == b | _ => false
termination_by structural tree => tree

def VariableDeclaration.same : VariableDeclaration → VariableDeclaration → Bool
  | ⟨n, t, v, c, r⟩, ⟨n', t', v', c', r'⟩ =>
    n == n' && sameTypeRef? t t' && sameExpression? v v' && c == c' && r == r'
termination_by structural tree => tree

def CountingLoop.same : CountingLoop → CountingLoop → Bool
  | ⟨n, t, a, z, s, d, b⟩, ⟨n', t', a', z', s', d', b'⟩ =>
    n == n' && sameTypeRef? t t' && a.same a' && z.same z' && sameExpression? s s' && d == d' &&
      b.same b'
termination_by structural tree => tree

def CollectionLoop.same : CollectionLoop → CollectionLoop → Bool
  | ⟨n, t, c, b⟩, ⟨n', t', c', b'⟩ => n == n' && sameTypeRef? t t' && c.same c' && b.same b'
termination_by structural tree => tree

def SwitchCase.same : SwitchCase → SwitchCase → Bool
  | ⟨l, s⟩, ⟨l', s'⟩ => sameExpressions l l' && sameStatements s s'
termination_by structural tree => tree

def TryStatement.same : TryStatement → TryStatement → Bool
  | ⟨s, c, f⟩, ⟨s', c', f'⟩ => sameStatements s s' && sameCatches c c' && sameStatements? f f'
termination_by structural tree => tree

def CatchBlock.same : CatchBlock → CatchBlock → Bool
  | ⟨n, t, s⟩, ⟨n', t', s'⟩ => n == n' && sameTypeRef? t t' && sameStatements s s'
termination_by structural tree => tree

def UsingStatement.same : UsingStatement → UsingStatement → Bool
  | ⟨n, t, v, b⟩, ⟨n', t', v', b'⟩ => n == n' && sameTypeRef? t t' && v.same v' && b.same b'
termination_by structural tree => tree

def sameExpression? : Option Expression → Option Expression → Bool
  | none, none => true
  | some a, some b => a.same b
  | _, _ => false
termination_by structural tree => tree

def sameExpressions : List Expression → List Expression → Bool
  | [], [] => true
  | a :: as, b :: bs => a.same b && sameExpressions as bs
  | _, _ => false
termination_by structural tree => tree

def sameArguments : List Argument → List Argument → Bool
  | [], [] => true
  | a :: as, b :: bs => a.same b && sameArguments as bs
  | _, _ => false
termination_by structural tree => tree

def sameParameters : List Parameter → List Parameter → Bool
  | [], [] => true
  | a :: as, b :: bs => a.same b && sameParameters as bs
  | _, _ => false
termination_by structural tree => tree

def sameTypeRef? : Option TypeRef → Option TypeRef → Bool
  | none, none => true
  | some a, some b => a.same b
  | _, _ => false
termination_by structural tree => tree

def sameTypeRefs : List TypeRef → List TypeRef → Bool
  | [], [] => true
  | a :: as, b :: bs => a.same b && sameTypeRefs as bs
  | _, _ => false
termination_by structural tree => tree

def sameStatement? : Option Statement → Option Statement → Bool
  | none, none => true
  | some a, some b => a.same b
  | _, _ => false
termination_by structural tree => tree

def sameStatements : List Statement → List Statement → Bool
  | [], [] => true
  | a :: as, b :: bs => a.same b && sameStatements as bs
  | _, _ => false
termination_by structural tree => tree

def sameStatements? : Option (List Statement) → Option (List Statement) → Bool
  | none, none => true
  | some a, some b => sameStatements a b
  | _, _ => false
termination_by structural tree => tree

def sameCases : List SwitchCase → List SwitchCase → Bool
  | [], [] => true
  | a :: as, b :: bs => a.same b && sameCases as bs
  | _, _ => false
termination_by structural tree => tree

def sameCatches : List CatchBlock → List CatchBlock → Bool
  | [], [] => true
  | a :: as, b :: bs => a.same b && sameCatches as bs
  | _, _ => false
termination_by structural tree => tree

end

def Attribute.same (a b : Attribute) : Bool :=
  a.type.same b.type && sameArguments a.arguments b.arguments &&
    sameExpression? a.condition b.condition

def GenericParameter.same (a b : GenericParameter) : Bool :=
  a.name == b.name && sameTypeRefs a.constraints b.constraints

/-- The lists are equally long and related element by element. -/
def sameList {α : Type} (same : α → α → Bool) : List α → List α → Bool
  | [], [] => true
  | a :: as, b :: bs => same a b && sameList same as bs
  | _, _ => false

/-- Two declarations carry the same. -/
def DeclarationInfo.same (a b : DeclarationInfo) : Bool :=
  a.visibility == b.visibility && sameExpression? a.condition b.condition &&
    sameList Attribute.same a.attributes b.attributes && a.comment == b.comment

def EnumCase.same (a b : EnumCase) : Bool :=
  a.name == b.name && sameExpression? a.value b.value && a.comment == b.comment

def MethodBody.same (a b : MethodBody) : Bool :=
  sameList GenericParameter.same a.genericParameters b.genericParameters &&
    sameParameters a.parameters b.parameters && sameTypeRef? a.returnType b.returnType &&
    sameStatements a.statements b.statements && a.isAsync == b.isAsync && a.throws == b.throws &&
    a.external == b.external

def FieldMember.same (a b : FieldMember) : Bool :=
  sameTypeRef? a.type b.type && sameExpression? a.initializer b.initializer &&
    a.constant == b.constant && a.readOnly == b.readOnly

def PropertyMember.same (a b : PropertyMember) : Bool :=
  a.type.same b.type && sameParameters a.parameters b.parameters &&
    sameStatements? a.getter b.getter && sameStatements? a.setter b.setter &&
    a.readOnly == b.readOnly && sameExpression? a.initializer b.initializer

def EventMember.same (a b : EventMember) : Bool :=
  a.type.same b.type && sameStatements? a.add b.add && sameStatements? a.remove b.remove

mutual

def TypeDefinition.same : TypeDefinition → TypeDefinition → Bool
  | ⟨_, n, i, f⟩, ⟨_, n', i', f'⟩ => n == n' && i.same i' && f.same f'
termination_by structural tree => tree

def TypeDefinitionForm.same : TypeDefinitionForm → TypeDefinitionForm → Bool
  | .aliasType t s, other =>
    match other with | .aliasType t' s' => t.same t' && s == s' | _ => false
  | .enumeration b c, other =>
    match other with
    | .enumeration b' c' => sameTypeRef? b b' && sameList EnumCase.same c c'
    | _ => false
  | .classType a, other => match other with | .classType b => a.same b | _ => false
  | .structType a, other => match other with | .structType b => a.same b | _ => false
  | .interfaceType a, other => match other with | .interfaceType b => a.same b | _ => false
  | .extensionType a, other => match other with | .extensionType b => a.same b | _ => false
  | .blockType p r, other =>
    match other with | .blockType p' r' => sameParameters p p' && sameTypeRef? r r' | _ => false
termination_by structural tree => tree

def ClassBody.same : ClassBody → ClassBody → Bool
  | ⟨g, a, i, m, static, closed, abstract, part⟩,
    ⟨g', a', i', m', static', closed', abstract', part'⟩ =>
    sameList GenericParameter.same g g' && sameTypeRefs a a' && sameTypeRefs i i' &&
      sameMembers m m' && static == static' && closed == closed' && abstract == abstract' &&
      part == part'
termination_by structural tree => tree

def Member.same : Member → Member → Bool
  | ⟨_, n, i, v, s, f⟩, ⟨_, n', i', v', s', f'⟩ =>
    n == n' && i.same i' && v == v' && s == s' && f.same f'
termination_by structural tree => tree

def MemberForm.same : MemberForm → MemberForm → Bool
  | .constructor a, other => match other with | .constructor b => a.same b | _ => false
  | .destructor a, other => match other with | .destructor b => a.same b | _ => false
  | .finalizer a, other => match other with | .finalizer b => a.same b | _ => false
  | .method a, other => match other with | .method b => a.same b | _ => false
  | .field a, other => match other with | .field b => a.same b | _ => false
  | .property a, other => match other with | .property b => a.same b | _ => false
  | .event a, other => match other with | .event b => a.same b | _ => false
  | .customOperator op a, other =>
    match other with | .customOperator op' b => op == op' && a.same b | _ => false
  | .nestedType a, other => match other with | .nestedType b => a.same b | _ => false
termination_by structural tree => tree

def sameMembers : List Member → List Member → Bool
  | [], [] => true
  | a :: as, b :: bs => a.same b && sameMembers as bs
  | _, _ => false
termination_by structural tree => tree

end

def Import.same (a b : Import) : Bool :=
  a.name == b.name && a.isStatic == b.isStatic && sameExpression? a.condition b.condition

def Global.same (a b : Global) : Bool :=
  a.isFunction == b.isFunction && a.member.same b.member

def CodeUnit.same (a b : CodeUnit) : Bool :=
  a.fileName == b.fileName && a.namespaceName == b.namespaceName &&
    a.headerComment == b.headerComment && sameList Import.same a.imports b.imports &&
    sameList Global.same a.globals b.globals && sameList TypeDefinition.same a.types b.types

end SourcePrinter
