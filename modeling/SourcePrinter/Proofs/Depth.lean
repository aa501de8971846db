import SourcePrinter.Proofs.Composed
import Mathlib.Logic.Basic

/-! Documents do not depend on the depth of the context, once it reaches every part: a rule asks its
context for parts of smaller size only, and contexts that agree on these give one document. -/

namespace SourcePrinter

open Doc

/-! ### Sizes -/

theorem Outline.size_entries (ks vs : List Outline) :
    (entries ks vs).size = (inOrder ks).size + (inOrder vs).size := by
  induction ks generalizing vs with
  | nil => exact (Nat.zero_add _).symm
  | cons k more ih =>
    cases vs with
    | nil => rfl
    | cons v rest =>
      simp only [entries, inOrder, size, ih]
      omega

/-- The sizes of three parts, however they are added up. -/
theorem sum_three {a b c x y z : Nat} (ha : a = x) (hb : b = y) (hc : c = z) :
    a + (b + c) = x + y + z := by
  omega

mutual

theorem Expression.size_outline : ∀ e : Expression, e.outline.size = e.size
  | ⟨_, form⟩ => congrArg (· + 1) form.size_outline

theorem ExpressionForm.size_outline : ∀ f : ExpressionForm, f.outline.size = f.size
  | .nil | .boolean _ | .integer .. | .float _ | .string _ | .character _ | .selfReference
  | .inherited | .result | .identifier _ | .localVariable _ | .raw _ => rfl
  | .array elements elementType =>
    (congrArg₂ (· + ·) (size_typeOutline? elementType) (size_expressionOutlines elements)).trans
      (Nat.add_comm _ _)
  | .dictionary literal => literal.size_outline
  | .tuple members => size_expressionOutlines members
  | .field access => access.size_outline
  | .property access => access.size_outline
  | .call call => call.size_outline
  | .newInstance type arguments =>
    congrArg₂ (· + ·) type.size_outline (size_argumentOutlines arguments)
  | .element array indices =>
    congrArg₂ (· + ·) array.size_outline (size_expressionOutlines indices)
  | .enumValue type _ | .typeReference type | .typeOf type | .sizeOf type | .defaultOf type =>
    type.size_outline
  | .typeCheck value type => congrArg₂ (· + ·) value.size_outline type.size_outline
  | .typeCast cast => cast.size_outline
  | .binary lhs _ rhs => congrArg₂ (· + ·) lhs.size_outline rhs.size_outline
  | .unary _ value => value.size_outline
  | .conditional condition ifTrue ifFalse =>
    sum_three condition.size_outline ifTrue.size_outline ifFalse.size_outline
  | .parentheses inner | .await inner | .addressOf inner | .dereference inner => inner.size_outline
  | .range start stop _ => congrArg₂ (· + ·) start.size_outline stop.size_outline
  | .anonymousMethod method => method.size_outline

theorem DictionaryLiteral.size_outline : ∀ d : DictionaryLiteral, d.outline.size = d.size
  | ⟨keys, values, keyType, valueType⟩ => by
    have hentries := Outline.size_entries (expressionOutlines keys) (expressionOutlines values)
    rw [size_expressionOutlines keys, size_expressionOutlines values] at hentries
    have hparts := sum_three (size_typeOutline? keyType) (size_typeOutline? valueType)
      hentries
    refine Eq.trans hparts ?_
    show _ = sizeExpressions keys + sizeExpressions values + sizeTypeRef? keyType +
      sizeTypeRef? valueType
    omega

theorem FieldAccess.size_outline : ∀ a : FieldAccess, a.outline.size = a.size
  | ⟨site, _, _⟩ => size_expressionOutline? site

theorem PropertyAccess.size_outline : ∀ a : PropertyAccess, a.outline.size = a.size
  | ⟨site, _, arguments, _⟩ =>
    congrArg₂ (· + ·) (size_expressionOutline? site) (size_argumentOutlines arguments)

theorem MethodCall.size_outline : ∀ c : MethodCall, c.outline.size = c.size
  | ⟨site, _, genericArguments, arguments, _⟩ =>
    sum_three (size_expressionOutline? site) (size_typeOutlines genericArguments)
      (size_argumentOutlines arguments)

theorem TypeCast.size_outline : ∀ c : TypeCast, c.outline.size = c.size
  | ⟨value, type, _⟩ => congrArg₂ (· + ·) value.size_outline type.size_outline

theorem AnonymousMethod.size_outline : ∀ m : AnonymousMethod, m.outline.size = m.size
  | ⟨parameters, returnType, statements⟩ =>
    sum_three (size_parameterOutlines parameters) (size_typeOutline? returnType)
      (size_statementOutlines statements)

theorem Argument.size_outline : ∀ a : Argument, a.outline.size = a.size
  | ⟨value, _, _⟩ => value.size_outline

theorem Parameter.size_outline : ∀ p : Parameter, p.outline.size = p.size
  | ⟨_, _, _, type, _, default⟩ =>
    congrArg (· + 1) (congrArg₂ (· + ·) type.size_outline (size_expressionOutline? default))

theorem TypeRef.size_outline : ∀ t : TypeRef, t.outline.size = t.size
  | ⟨_, form, _, _, _, defaultValue⟩ =>
    congrArg (· + 1) (congrArg₂ (· + ·) form.size_outline (size_expressionOutline? defaultValue))

theorem TypeForm.size_outline : ∀ f : TypeForm, f.outline.size = f.size
  | .named type => type.size_outline
  | .predefined _ | .unknown => rfl
  | .pointer target _ | .kindOf target | .constant target => target.size_outline
  | .array element _ _ | .sequence element => element.size_outline
  | .dictionary key value => congrArg₂ (· + ·) key.size_outline value.size_outline
  | .tuple members => size_typeOutlines members
  | .inlineBlock block => block.size_outline
  | .range start stop => congrArg₂ (· + ·) start.size_outline stop.size_outline

theorem NamedType.size_outline : ∀ t : NamedType, t.outline.size = t.size
  | ⟨_, _, genericArguments⟩ => size_typeOutlines genericArguments

theorem InlineBlock.size_outline : ∀ b : InlineBlock, b.outline.size = b.size
  | ⟨parameters, returnType, _⟩ =>
    congrArg₂ (· + ·) (size_typeOutlines parameters) (size_typeOutline? returnType)

theorem Statement.size_outline : ∀ s : Statement, s.outline.size = s.size
  | ⟨_, form⟩ => congrArg (· + 1) form.size_outline

theorem StatementForm.size_outline : ∀ f : StatementForm, f.outline.size = f.size
  | .block statements => size_statementOutlines statements
  | .expression value => value.size_outline
  | .declare declaration => declaration.size_outline
  | .assignment target value => congrArg₂ (· + ·) target.size_outline value.size_outline
  | .conditional condition thenBranch elseBranch =>
    sum_three condition.size_outline thenBranch.size_outline
      (size_statementOutline? elseBranch)
  | .whileLoop condition body => congrArg₂ (· + ·) condition.size_outline body.size_outline
  | .doWhile condition body =>
    (congrArg₂ (· + ·) body.size_outline condition.size_outline).trans (Nat.add_comm _ _)
  | .infiniteLoop body => body.size_outline
  | .forTo loop => loop.size_outline
  | .forEach loop => loop.size_outline
  | .switch value cases default =>
    sum_three value.size_outline (size_caseOutlines cases)
      (size_statementOutlines? default)
  | .tryCatch attempt => attempt.size_outline
  | .throwing value | .returning value => size_expressionOutline? value
  | .locking value body => congrArg₂ (· + ·) value.size_outline body.size_outline
  | .using resource => resource.size_outline
  | .breakLoop | .continueLoop | .comment _ | .empty | .raw _ => rfl

theorem VariableDeclaration.size_outline : ∀ d : VariableDeclaration, d.outline.size = d.size
  | ⟨_, type, value, _, _⟩ =>
    congrArg₂ (· + ·) (size_typeOutline? type) (size_expressionOutline? value)

theorem CountingLoop.size_outline : ∀ l : CountingLoop, l.outline.size = l.size
  | ⟨_, type, start, stop, step, _, body⟩ => by
    have hlast := sum_three stop.size_outline (size_expressionOutline? step)
      body.size_outline
    refine Eq.trans (sum_three (size_typeOutline? type) start.size_outline hlast) ?_
    show _ = sizeTypeRef? type + start.size + stop.size + sizeExpression? step + body.size
    omega

theorem CollectionLoop.size_outline : ∀ l : CollectionLoop, l.outline.size = l.size
  | ⟨_, type, collection, body⟩ =>
    sum_three (size_typeOutline? type) collection.size_outline body.size_outline

theorem SwitchCase.size_outline : ∀ c : SwitchCase, c.outline.size = c.size
  | ⟨labels, statements⟩ =>
    congrArg₂ (· + ·) (size_expressionOutlines labels) (size_statementOutlines statements)

theorem TryStatement.size_outline : ∀ t : TryStatement, t.outline.size = t.size
  | ⟨statements, catches, cleanup⟩ =>
    sum_three (size_statementOutlines statements) (size_catchOutlines catches)
      (size_statementOutlines? cleanup)

theorem CatchBlock.size_outline : ∀ b : CatchBlock, b.outline.size = b.size
  | ⟨_, type, statements⟩ =>
    congrArg₂ (· + ·) (size_typeOutline? type) (size_statementOutlines statements)

theorem UsingStatement.size_outline : ∀ u : UsingStatement, u.outline.size = u.size
  | ⟨_, type, value, body⟩ =>
    sum_three (size_typeOutline? type) value.size_outline body.size_outline

theorem size_expressionOutline? :
    ∀ value : Option Expression, (expressionOutline? value).size = sizeExpression? value
  | none => rfl
  | some e => e.size_outline

theorem size_expressionOutlines :
    ∀ es : List Expression, (Outline.inOrder (expressionOutlines es)).size = sizeExpressions es
  | [] => rfl
  | e :: more => congrArg₂ (· + ·) e.size_outline (size_expressionOutlines more)

theorem size_argumentOutlines :
    ∀ as : List Argument, (Outline.inOrder (argumentOutlines as)).size = sizeArguments as
  | [] => rfl
  | a :: more => congrArg₂ (· + ·) a.size_outline (size_argumentOutlines more)

theorem size_parameterOutlines :
    ∀ ps : List Parameter, (Outline.inOrder (parameterOutlines ps)).size = sizeParameters ps
  | [] => rfl
  | p :: more => congrArg₂ (· + ·) p.size_outline (size_parameterOutlines more)

theorem size_typeOutline? : ∀ t : Option TypeRef, (typeOutline? t).size = sizeTypeRef? t
  | none => rfl
  | some t => t.size_outline

theorem size_typeOutlines :
    ∀ ts : List TypeRef, (Outline.inOrder (typeOutlines ts)).size = sizeTypeRefs ts
  | [] => rfl
  | t :: more => congrArg₂ (· + ·) t.size_outline (size_typeOutlines more)

theorem size_statementOutline? :
    ∀ s : Option Statement, (statementOutline? s).size = sizeStatement? s
  | none => rfl
  | some s => s.size_outline

theorem size_statementOutlines :
    ∀ ss : List Statement, (Outline.inOrder (statementOutlines ss)).size = sizeStatements ss
  | [] => rfl
  | s :: more => congrArg₂ (· + ·) s.size_outline (size_statementOutlines more)

theorem size_statementOutlines? :
    ∀ ss : Option (List Statement),
      (Outline.inOrder (statementOutlines? ss)).size = sizeStatements? ss
  | none => rfl
  | some ss => size_statementOutlines ss

theorem size_caseOutlines :
    ∀ cs : List SwitchCase, (Outline.inOrder (caseOutlines cs)).size = sizeCases cs
  | [] => rfl
  | c :: more => congrArg₂ (· + ·) c.size_outline (size_caseOutlines more)

theorem size_catchOutlines :
    ∀ cs : List CatchBlock, (Outline.inOrder (catchOutlines cs)).size = sizeCatches cs
  | [] => rfl
  | c :: more => congrArg₂ (· + ·) c.size_outline (size_catchOutlines more)

end

theorem size_all {α : Type} {outline : α → Outline} {size : α → Nat}
    (h : ∀ a, (outline a).size = size a) (items : List α) :
    (Outline.inOrder (items.map outline)).size = sizeAll size items := by
  induction items with
  | nil => rfl
  | cons a more ih => exact congrArg₂ (· + ·) (h a) ih

theorem Attribute.size_outline (a : Attribute) : a.outline.size = a.size :=
  (Nat.add_comm _ _).trans (congrArg₂ (· + ·)
    (congrArg₂ (· + ·) a.type.size_outline (size_argumentOutlines a.arguments))
    (size_expressionOutline? a.condition))

theorem GenericParameter.size_outline (g : GenericParameter) : g.outline.size = g.size :=
  size_typeOutlines g.constraints

/-- The condition of a declaration stands beside it. -/
theorem DeclarationInfo.size_outline (info : DeclarationInfo) :
    (expressionOutline? info.condition).size + info.outline.size = info.size :=
  congrArg₂ (· + ·) (size_expressionOutline? info.condition)
    (size_all Attribute.size_outline info.attributes)

theorem MethodBody.size_outline (b : MethodBody) : b.outline.size = b.size := by
  have hgenerics := size_all GenericParameter.size_outline b.genericParameters
  have hparts := sum_three (size_parameterOutlines b.parameters) hgenerics
    (size_statementOutlines b.statements)
  refine Eq.trans (congrArg₂ (· + ·) (size_typeOutline? b.returnType) hparts) ?_
  show _ = sizeGenericParameters b.genericParameters + sizeParameters b.parameters +
    sizeTypeRef? b.returnType + sizeStatements b.statements
  rw [sizeGenericParameters]
  omega

theorem FieldMember.size_outline (f : FieldMember) : f.outline.size = f.size :=
  congrArg₂ (· + ·) (size_typeOutline? f.type) (size_expressionOutline? f.initializer)

theorem PropertyMember.size_outline (p : PropertyMember) : p.outline.size = p.size := by
  have hlast := sum_three (size_statementOutlines? p.getter) (size_statementOutlines? p.setter)
    (size_expressionOutline? p.initializer)
  refine Eq.trans (sum_three p.type.size_outline (size_parameterOutlines p.parameters) hlast) ?_
  show _ = p.type.size + sizeParameters p.parameters + sizeStatements? p.getter +
    sizeStatements? p.setter + sizeExpression? p.initializer
  omega

theorem EventMember.size_outline (e : EventMember) : e.outline.size = e.size :=
  sum_three e.type.size_outline (size_statementOutlines? e.add) (size_statementOutlines? e.remove)

theorem EnumCase.size_outline (v : EnumCase) : v.outline.size = v.size :=
  size_expressionOutline? v.value

mutual

theorem TypeDefinition.size_outline : ∀ t : TypeDefinition, t.outline.size = t.size
  | ⟨_, _, info, form⟩ => by
    have hinfo := info.size_outline
    have hform := form.size_outline
    show (expressionOutline? info.condition).size + (info.outline.size + form.outline.size + 1) =
      info.size + form.size + 1
    omega

theorem TypeDefinitionForm.size_outline : ∀ f : TypeDefinitionForm, f.outline.size = f.size
  | .aliasType actual _ => actual.size_outline
  | .enumeration base cases =>
    congrArg₂ (· + ·) (size_typeOutline? base) (size_all EnumCase.size_outline cases)
  | .classType body | .structType body | .interfaceType body | .extensionType body =>
    body.size_outline
  | .blockType parameters returnType =>
    (Nat.add_comm _ _).trans
      (congrArg₂ (· + ·) (size_parameterOutlines parameters) (size_typeOutline? returnType))

theorem ClassBody.size_outline : ∀ b : ClassBody, b.outline.size = b.size
  | ⟨genericParameters, ancestors, interfaces, members, _, _, _, _⟩ => by
    have hgenerics := size_all GenericParameter.size_outline genericParameters
    have hparts := sum_three (size_typeOutlines interfaces) hgenerics
      (size_memberOutlines members)
    refine Eq.trans (congrArg₂ (· + ·) (size_typeOutlines ancestors) hparts) ?_
    show _ = sizeGenericParameters genericParameters + sizeTypeRefs ancestors +
      sizeTypeRefs interfaces + sizeMembers members
    rw [sizeGenericParameters]
    omega

theorem Member.size_outline : ∀ m : Member, m.outline.size = m.size
  | ⟨_, _, info, _, _, form⟩ => by
    have hinfo := info.size_outline
    have hform := form.size_outline
    show (expressionOutline? info.condition).size + (info.outline.size + form.outline.size + 1) =
      info.size + form.size + 1
    omega

theorem MemberForm.size_outline : ∀ f : MemberForm, f.outline.size = f.size
  | .constructor body | .destructor body | .finalizer body | .method body
  | .customOperator _ body => body.size_outline
  | .field field => field.size_outline
  | .property property => property.size_outline
  | .event event => event.size_outline
  | .nestedType t => t.size_outline

theorem size_memberOutlines :
    ∀ ms : List Member, (Outline.inOrder (memberOutlines ms)).size = sizeMembers ms
  | [] => rfl
  | m :: more => congrArg₂ (· + ·) m.size_outline (size_memberOutlines more)

end

theorem CodeUnit.size_outline (u : CodeUnit) : u.outline.size = u.size := by
  have himport : ∀ i : Import, i.outline.size = i.size :=
    fun i => size_expressionOutline? i.condition
  exact congrArg (· + 1) (sum_three (size_all himport u.imports)
    (size_all (fun g => g.member.size_outline) u.globals)
    (size_all TypeDefinition.size_outline u.types))

/-! ### Documents of equal parts -/

theorem Part.size_pos (p : Part) : 0 < p.outline.size := by
  cases p with
  | member m | definition m =>
    rw [Part.outline, m.outline_eq, Outline.size, Outline.size]
    omega
  | expression e | typeRef e | typeRefAs _ e | parameter e | statement e | body e =>
    rw [Part.outline, e.outline_eq, Outline.size]
    omega

namespace Context

/-- The contexts have the same documents for the parts of some size. -/
def Agrees (c alt : Context) (k : Nat) : Prop :=
  ∀ p : Part, p.outline.size ≤ k → p.doc c = p.doc alt

end Context

section

variable {hooks : Hooks} {faults : Faults} {whole : Prop} {c alt : Context} {n : Node}
variable {d d' : Doc} {o : Outline} {k : Nat}

/-- A rule gives one document in contexts that agree on the parts. -/
theorem Composed.eq (h : Composed hooks faults whole c alt n d d' o) (hc : c.Agrees alt k)
    (ho : o.size ≤ k) : d = d' := by
  induction h with
  | words | typeGap | gap | fault => rfl
  | part p => exact hc p ho
  | beside _ _ ih ih' | before _ _ ih ih' =>
    rw [Outline.size] at ho
    rw [ih (by omega), ih' (by omega)]
  | trim _ ih => exact (Doc.append.inj (ih ho)).1
  | nested _ ih | aligned _ ih | inside _ ih => rw [ih ho]
  | perScope _ ih => exact congrArg Doc.perScope (funext fun scope => ih scope ho)
  | equal hxy _ ih => exact ih (hxy.size ▸ ho)
  | unordered _ ih => exact ih ho
  | within _ _ _ ih =>
    rw [Outline.size] at ho
    exact ih (by omega)
  | @carried e t x _ =>
    have he : (Part.expression e).outline.size ≤ k := by
      simp only [Outline.size] at ho
      show e.outline.size ≤ k
      omega
    have hdoc : c.expression e = alt.expression e := hc (.expression e) he
    rw [hdoc]
  | detached _ _ _ ih ih' =>
    have hone : (Outline.node (.expression Language.endless) .nothing).size ≤ k := by
      simp only [Outline.size] at ho ⊢
      omega
    rw [ih hone, ih' ho]

end

/-! ### Contexts -/

namespace Language

/-- The document of a part that a rule gives with the contexts of the parts below it. -/
def write (l : Language) (c : Context) : Part → Doc
  | .expression e => l.expressionNode c e
  | .typeRef t => l.typeNode c t t
  | .typeRefAs n t => l.typeNode c t (t.view n)
  | .parameter p => l.parameterNode c p
  | .statement s => l.statementNode c s
  | .body s => l.bodyNode c s
  | .member m => l.memberNode c m
  | .definition t => l.definitionNode c t

variable (l : Language) (setting : Setting)

/-- A context writes each part with the context that reaches one level less. -/
theorem doc_context_succ (depth : Nat) (p : Part) :
    p.doc (l.context setting (depth + 1)) = l.write (l.context setting depth) p := by
  cases p <;> rfl

theorem context_speaks (depth : Nat) : (l.context setting depth).Speaks l := by
  induction depth with
  | zero => exact ⟨rfl, rfl, rfl, rfl⟩
  | succ depth ih => exact ⟨ih.language, ih.remark, ih.lineComment, ih.docComment⟩

/-- Contexts of two depths differ in the documents of the parts only. -/
theorem context_refill (k m : Nat) :
    (l.context setting k).refill (l.context setting m) = l.context setting m := by
  have hzero : (l.context setting 0).refill (l.context setting m) = l.context setting m := by
    induction m with
    | zero => rfl
    | succ m ih =>
      calc (l.context setting 0).refill (l.context setting (m + 1))
        _ = ((l.context setting 0).refill (l.context setting m)).refill
              (l.context setting (m + 1)) := rfl
        _ = (l.context setting m).refill (l.context setting (m + 1)) := by rw [ih]
        _ = l.context setting (m + 1) := rfl
  induction k with
  | zero => exact hzero
  | succ k ih => exact ih

end Language

namespace Language.Composes

variable {l : Language} {faults : Faults} {c alt : Context} {n : Node} {k : Nat}
variable {d d' : Doc} {o : Outline}

theorem guarded (h : l.Composes faults) (hc : c.Speaks l)
    (hd : Composed l.hooks faults False c alt n d d' o) (condition : Option Expression) :
    Composed l.hooks faults False c alt n (l.guarded c condition d)
      (l.guarded (c.refill alt) condition d') (.beside (expressionOutline? condition) o) := by
  cases condition with
  | none => exact .right hd nofun
  | some e =>
    simp only [Language.guarded, h.conditionEnd_refill c alt]
    refine .before_words (.before_words (.before_words (.beside ?_ hd) wordy_lineStart)
      (h.conditionEnd c)) wordy_lineStart
    exact .before_words (.after_words wordy_lineStart (h.conditionStart e hc)) wordy_lineStart

theorem preamble (h : l.Composes faults) (hc : c.Speaks l) (info : DeclarationInfo) :
    Composed l.hooks faults False c alt n (l.preamble c info) (l.preamble (c.refill alt) info)
      info.outline := by
  have hcomment : (whenSome info.comment l.docComment).Wordy :=
    wordy_whenSome (fun comment => (h.docComment comment).append wordy_lineStart) info.comment
  refine .after_words hcomment (.concat (fun a => ?_) info.attributes)
  exact h.guarded hc (.before_words (h.attributeLine a hc) wordy_lineStart) a.condition

theorem unitRule (h : l.Composes faults) (hc : c.Speaks l) (u : CodeUnit) :
    Composed l.hooks faults False c alt (.unit u) (l.unitRule c u) (l.unitRule (c.refill alt) u)
      (.beside (.inOrder (u.imports.map Import.outline))
        (.beside (.inOrder (u.globals.map fun g => g.member.outline))
          (.inOrder (u.types.map TypeDefinition.outline)))) := by
  have hheader : (l.fileHeader u).Wordy := by
    refine wordy_whenSome (fun comment => ?_) u.headerComment
    exact (wordy_concat h.wordy.lineComment comment.lines).append wordy_newline
  have himport : ∀ i, Composed l.hooks faults False c alt (.unit u) (l.importDoc c i)
      (l.importDoc (c.refill alt) i) i.outline := by
    intro i
    refine .equal (.beside_nothing _) (h.guarded hc ?_ i.condition)
    rw [h.importing]
    exact .wordy ((h.wordy.importing c i).append wordy_lineStart)
  have hgap : ∀ condition, Composed l.hooks faults False c alt (.unit u)
      (when condition Doc.typeGap) (when condition Doc.typeGap) .nothing :=
    fun _ => .when (.typeGap rfl) fun _ => nofun
  have htypes : ∀ (ts : List TypeDefinition) (first : Bool), Composed l.hooks faults False c alt
      (.unit u) (Language.typeList c first ts) (Language.typeList (c.refill alt) first ts)
      (.inOrder (ts.map TypeDefinition.outline)) := by
    intro ts
    induction ts with
    | nil => exact fun _ => .wordy (d := .empty) trivial
    | cons t more ih =>
      refine fun first => .before (.equal ?_ (.beside (hgap (!first)) (.definition t))) (ih false)
      exact (Outline.Equal.comm ..).trans (.beside_nothing _)
  refine .beside (.before_words (.after_words hheader (.concat himport u.imports)) ?_) ?_
  · exact wordy_when wordy_newline _
  · exact h.enclose u hc (.beside (h.globals u.globals hc) (htypes u.types _))

end Language.Composes

/-! ### Nodes -/

/-- Parameters, statements and declarations. -/
def Node.IsPlain : Node → Prop
  | .parameter _ | .statement _ | .member _ | .definition _ => True
  | .unit _ | .expression _ | .typeRef _ => False

namespace Node.IsPlain

variable {n : Node}

theorem ne_expression (h : n.IsPlain) : n.key.category ≠ .expression := by
  cases n with
  | parameter | statement | member | definition => rintro ⟨⟩
  | unit | expression | typeRef => exact h.elim

theorem ne_typeReference (h : n.IsPlain) : n.key.category ≠ .typeReference := by
  cases n with
  | parameter | statement | member | definition => rintro ⟨⟩
  | unit | expression | typeRef => exact h.elim

theorem ne_unit (h : n.IsPlain) (u : CodeUnit) : n ≠ .unit u := by
  rintro rfl
  exact h

end Node.IsPlain

/-- The documents of a part in two contexts: a node around what the rule for it puts together. That
of a statement ends its line, and that of a declaration may stand in a guard. -/
inductive Language.Written (l : Language) (faults : Faults) (whole : Prop) (c alt : Context) :
    Doc → Doc → Outline → Prop where
  | expression (e : Expression) :
    l.Written faults whole c alt (l.expressionNode c e) (l.expressionNode (c.refill alt) e)
      e.outline
  /-- The nullability in force may be another. -/
  | typeRef {t inForce : TypeRef} : inForce.form = t.form →
    l.Written faults whole c alt (l.typeNode c t inForce) (l.typeNode (c.refill alt) t inForce)
      t.outline
  | node {n : Node} {d d' : Doc} {o : Outline} : n.IsPlain →
    Composed l.hooks faults whole c alt n d d' o →
    l.Written faults whole c alt (.node n.key d) (.node n.key d') (.node n o)
  | ended {n : Node} {d d' : Doc} {o : Outline} : n.IsPlain →
    Composed l.hooks faults whole c alt n d d' o →
    l.Written faults whole c alt (.node n.key d ++ lineStart) (.node n.key d' ++ lineStart)
      (.node n o)
  | guarded {n : Node} {d d' : Doc} {o : Outline} (condition : Option Expression) : ¬ whole →
    n.IsPlain → Composed l.hooks faults False c alt n d d' o →
    l.Written faults whole c alt (l.guarded c condition (.node n.key d ++ lineStart))
      (l.guarded (c.refill alt) condition (.node n.key d' ++ lineStart))
      (.beside (expressionOutline? condition) (.node n o))

namespace Language.Composes

variable {l : Language} {faults : Faults} {whole : Prop} {c alt : Context} {k : Nat}
variable {d d' : Doc} {o : Outline}

/-- A rule writes its part as a node. -/
theorem written (h : l.Composes faults) (hc : c.Speaks l) {p : Part} (hp : whole → p.IsCode) :
    l.Written faults whole c alt (l.write c p) (l.write (c.refill alt) p) p.outline := by
  have hstatement : ∀ s : Statement, l.Written faults whole c alt (l.statementNode c s)
      (l.statementNode (c.refill alt) s) s.outline := by
    intro s
    rw [s.outline_eq]
    exact .ended (n := .statement s) trivial (h.statement s hc)
  cases p with
  | expression e => exact .expression e
  | typeRef t => exact .typeRef rfl
  | typeRefAs n t => exact .typeRef (TypeRef.form_view t n)
  | parameter p =>
    rw [Part.outline, p.outline_eq]
    exact .node (n := .parameter p) trivial (h.parameter p hc)
  | statement s => exact hstatement s
  | body s =>
    -- A block that is a body is its statements, in the node of the block.
    obtain ⟨id, form⟩ := s
    cases form with
    | block ss => exact .node (n := .statement ⟨id, .block ss⟩) trivial (.statements ss)
    | _ => exact hstatement _
  | member m =>
    rw [Part.outline, m.outline_eq]
    exact .guarded (n := .member m) m.info.condition hp trivial
      (.beside (h.preamble hc m.info) (h.member m hc))
  | definition t =>
    rw [Part.outline, t.outline_eq]
    exact .guarded (n := .definition t) t.info.condition hp trivial
      (.beside (h.preamble hc t.info) (.inside (h.definition t hc)))

theorem guarded_eq (h : l.Composes faults) (hc : c.Speaks l) (ha : c.Agrees alt k)
    {condition : Option Expression} (hk : (expressionOutline? condition).size ≤ k) (hd : d = d') :
    l.guarded c condition d = l.guarded (c.refill alt) condition d' := by
  cases condition with
  | none => exact hd
  | some e =>
    have hstart : Composed l.hooks faults False c alt (.expression e) _ _ _ :=
      h.conditionStart e hc
    simp only [Language.guarded, hd, hstart.eq ha hk, h.conditionEnd_refill c alt]

/-- A rule gives one document in contexts that agree on what is smaller than its part. -/
theorem written_eq (h : l.Composes faults) (hc : c.Speaks l) (ha : c.Agrees alt k)
    (hd : l.Written faults whole c alt d d' o) (hk : o.size ≤ k + 1) : d = d' := by
  cases hd with
  | expression e =>
    have hrule : Composed l.hooks faults False c alt (.expression e) _ _ _ := h.expression e hc
    rw [e.outline_eq, Outline.size] at hk
    exact congrArg (Doc.node _) (hrule.eq ha (by omega))
  | @typeRef t inForce ht =>
    have hrule : Composed l.hooks faults False c alt (.typeRef t) _ _ _ := h.typeRef inForce hc
    rw [t.outline_eq, Outline.size, Outline.size] at hk
    exact congrArg (Doc.node _) (hrule.eq ha (by rw [ht]; omega))
  | node _ hrule =>
    rw [Outline.size] at hk
    rw [hrule.eq ha (by omega)]
  | ended _ hrule =>
    rw [Outline.size] at hk
    rw [hrule.eq ha (by omega)]
  | guarded condition _ _ hrule =>
    rw [Outline.size, Outline.size] at hk
    refine h.guarded_eq hc ha (by omega) ?_
    rw [hrule.eq ha (by omega)]

/-! ### Independence of the depth -/

/-- Two contexts agree on the parts that both of them reach. -/
theorem agrees (h : l.Composes faults) (setting : Setting) (j : Nat) {k m : Nat} (hk : j ≤ k)
    (hm : j ≤ m) : (l.context setting k).Agrees (l.context setting m) j := by
  -- On the size that both reach: a rule asks its context for smaller parts only.
  induction j generalizing k m with
  | zero =>
    intro p hp
    exact absurd hp (Nat.not_le_of_gt p.size_pos)
  | succ j ih =>
    obtain ⟨k, rfl⟩ : ∃ k', k = k' + 1 := ⟨k - 1, by omega⟩
    obtain ⟨m, rfl⟩ : ∃ m', m = m' + 1 := ⟨m - 1, by omega⟩
    have ha : (l.context setting k).Agrees (l.context setting m) j := ih (by omega) (by omega)
    have hspeaks := l.context_speaks setting k
    intro p hp
    rw [l.doc_context_succ, l.doc_context_succ,
      h.written_eq hspeaks ha (h.written hspeaks False.elim) hp, l.context_refill]

/-- A part has one document in all contexts that reach it. -/
theorem doc_context (h : l.Composes faults) (setting : Setting) (p : Part) {k m : Nat}
    (hk : p.outline.size ≤ k) (hm : p.outline.size ≤ m) :
    p.doc (l.context setting k) = p.doc (l.context setting m) :=
  h.agrees setting p.outline.size hk hm p (Nat.le_refl _)

theorem expression_context (h : l.Composes faults) (setting : Setting) {e : Expression} {k : Nat}
    (hk : e.size ≤ k) : (l.context setting k).expression e = l.expressionDoc setting e := by
  have hsize : e.outline.size ≤ e.size := Nat.le_of_eq e.size_outline
  exact h.doc_context setting (.expression e) (Nat.le_trans hsize hk) hsize

theorem typeRef_context (h : l.Composes faults) (setting : Setting) {t : TypeRef} {k : Nat}
    (hk : t.size ≤ k) : (l.context setting k).typeRef t = l.typeDoc setting t := by
  have hsize : t.outline.size ≤ t.size := Nat.le_of_eq t.size_outline
  exact h.doc_context setting (.typeRef t) (Nat.le_trans hsize hk) hsize

/-- A unit has one document in all contexts that reach its parts. -/
theorem unitRule_context (h : l.Composes faults) (setting : Setting) (u : CodeUnit) {k m : Nat}
    (hk : u.size ≤ k) (hm : u.size ≤ m) :
    l.unitRule (l.context setting k) u = l.unitRule (l.context setting m) u := by
  have hrule : Composed l.hooks faults False (l.context setting k) (l.context setting m)
    (.unit u) _ _ _ := h.unitRule (l.context_speaks setting k) u
  rw [l.context_refill] at hrule
  have hsize := u.size_outline
  rw [CodeUnit.outline, Outline.size] at hsize
  exact hrule.eq (h.agrees setting u.size hk hm) (by omega)

end Language.Composes

end SourcePrinter
