import SourcePrinter.Session

/-! Outlines of trees: the nodes of a tree, each with what lies below it, and the order of the
elements of its lists. An outline says nothing of how a language writes the tree. -/

namespace SourcePrinter

/-- A node of a tree. -/
inductive Node where
  | unit (u : CodeUnit)
  | definition (t : TypeDefinition)
  | member (m : Member)
  | parameter (p : Parameter)
  | statement (s : Statement)
  | expression (e : Expression)
  | typeRef (t : TypeRef)

/-- The key of a node. -/
def Node.key : Node → NodeKey
  | unit u => u.key
  | definition t => t.key
  | member m => m.key
  | parameter p => p.key
  | statement s => s.key
  | expression e => e.key
  | typeRef t => t.key

/-- The nodes of a tree. -/
inductive Outline where
  | nothing
  /-- A node and what lies below it. -/
  | node (n : Node) (parts : Outline)
  /-- What a type reference carries with it: its default value and the ends of a range. These are
  no part of its text. -/
  | carried (o : Outline)
  /-- Two parts in no order. -/
  | beside (first second : Outline)
  /-- The elements of a list, the first and those after it. -/
  | before (first rest : Outline)

namespace Outline

/-- The elements of a list. -/
def inOrder : List Outline → Outline
  | [] => nothing
  | o :: os => before o (inOrder os)

/-- The entries of a dictionary: keys with their values, as far as there are both. -/
def entries : List Outline → List Outline → Outline
  | k :: ks, v :: vs => before (beside k v) (entries ks vs)
  | [], vs => inOrder vs
  | ks, [] => inOrder ks

end Outline

/-! ### Outlines of the kinds of tree

The outline of a node has the node on top. The outline of what is no node is that of its parts. -/

mutual

def Expression.outline : Expression → Outline
  | ⟨id, form⟩ => .node (.expression ⟨id, form⟩) form.outline

def ExpressionForm.outline : ExpressionForm → Outline
  | .nil | .boolean _ | .integer .. | .float _ | .string _ | .character _ | .selfReference
  | .inherited | .result | .identifier _ | .localVariable _ | .raw _ => .nothing
  | .array elements elementType =>
    .beside (typeOutline? elementType) (.inOrder (expressionOutlines elements))
  | .dictionary literal => literal.outline
  | .tuple members => .inOrder (expressionOutlines members)
  | .field access => access.outline
  | .property access => access.outline
  | .call call => call.outline
  | .newInstance type arguments => .beside type.outline (.inOrder (argumentOutlines arguments))
  | .element array indices => .beside array.outline (.inOrder (expressionOutlines indices))
  | .enumValue type _ | .typeReference type | .typeOf type | .sizeOf type | .defaultOf type =>
    type.outline
  | .typeCheck value type => .beside value.outline type.outline
  | .typeCast cast => cast.outline
  | .binary lhs _ rhs => .beside lhs.outline rhs.outline
  | .unary _ value => value.outline
  | .conditional condition ifTrue ifFalse =>
    .beside condition.outline (.beside ifTrue.outline ifFalse.outline)
  | .parentheses inner | .await inner | .addressOf inner | .dereference inner => inner.outline
  | .range start stop _ => .beside start.outline stop.outline
  | .anonymousMethod method => method.outline

def DictionaryLiteral.outline : DictionaryLiteral → Outline
  | ⟨keys, values, keyType, valueType⟩ =>
    .beside (typeOutline? keyType) (.beside (typeOutline? valueType)
      (.entries (expressionOutlines keys) (expressionOutlines values)))

def FieldAccess.outline : FieldAccess → Outline
  | ⟨site, _, _⟩ => expressionOutline? site

def PropertyAccess.outline : PropertyAccess → Outline
  | ⟨site, _, arguments, _⟩ =>
    .beside (expressionOutline? site) (.inOrder (argumentOutlines arguments))

def MethodCall.outline : MethodCall → Outline
  | ⟨site, _, genericArguments, arguments, _⟩ =>
    .beside (expressionOutline? site) (.beside (.inOrder (typeOutlines genericArguments))
      (.inOrder (argumentOutlines arguments)))

def TypeCast.outline : TypeCast → Outline
  | ⟨value, type, _⟩ => .beside value.outline type.outline

def AnonymousMethod.outline : AnonymousMethod → Outline
  | ⟨parameters, returnType, statements⟩ =>
    .beside (.inOrder (parameterOutlines parameters)) (.beside (typeOutline? returnType)
      (.inOrder (statementOutlines statements)))

def Argument.outline : Argument → Outline
  | ⟨value, _, _⟩ => value.outline

def Parameter.outline : Parameter → Outline
  | ⟨id, name, externalName, type, modifier, default⟩ =>
    .node (.parameter ⟨id, name, externalName, type, modifier, default⟩)
      (.beside type.outline (expressionOutline? default))

def TypeRef.outline : TypeRef → Outline
  | ⟨id, form, explicit, implied, isClass, defaultValue⟩ =>
    .node (.typeRef ⟨id, form, explicit, implied, isClass, defaultValue⟩)
      (.beside form.outline (.carried (expressionOutline? defaultValue)))

def TypeForm.outline : TypeForm → Outline
  | .named type => type.outline
  | .predefined _ | .unknown => .nothing
  | .pointer target _ | .kindOf target | .constant target => target.outline
  | .array element _ _ | .sequence element => element.outline
  | .dictionary key value => .beside key.outline value.outline
  | .tuple members => .inOrder (typeOutlines members)
  | .inlineBlock block => block.outline
  | .range start stop => .carried (.beside start.outline stop.outline)

def NamedType.outline : NamedType → Outline
  | ⟨_, _, genericArguments⟩ => .inOrder (typeOutlines genericArguments)

def InlineBlock.outline : InlineBlock → Outline
  | ⟨parameters, returnType, _⟩ =>
    .beside (.inOrder (typeOutlines parameters)) (typeOutline? returnType)

def Statement.outline : Statement → Outline
  | ⟨id, form⟩ => .node (.statement ⟨id, form⟩) form.outline

def StatementForm.outline : StatementForm → Outline
  | .block statements => .inOrder (statementOutlines statements)
  | .expression value => value.outline
  | .declare declaration => declaration.outline
  | .assignment target value => .beside target.outline value.outline
  | .conditional condition thenBranch elseBranch =>
    .beside condition.outline (.beside thenBranch.outline (statementOutline? elseBranch))
  | .whileLoop condition body => .beside condition.outline body.outline
  | .doWhile condition body => .beside body.outline condition.outline
  | .infiniteLoop body => body.outline
  | .forTo loop => loop.outline
  | .forEach loop => loop.outline
  | .switch value cases default =>
    .beside value.outline (.beside (.inOrder (caseOutlines cases))
      (.inOrder (statementOutlines? default)))
  | .tryCatch attempt => attempt.outline
  | .throwing value | .returning value => expressionOutline? value
  | .locking value body => .beside value.outline body.outline
  | .using resource => resource.outline
  | .breakLoop | .continueLoop | .comment _ | .empty | .raw _ => .nothing

def VariableDeclaration.outline : VariableDeclaration → Outline
  | ⟨_, type, value, _, _⟩ => .beside (typeOutline? type) (expressionOutline? value)

def CountingLoop.outline : CountingLoop → Outline
  | ⟨_, type, start, stop, step, _, body⟩ =>
    .beside (typeOutline? type) (.beside start.outline (.beside stop.outline
      (.beside (expressionOutline? step) body.outline)))

def CollectionLoop.outline : CollectionLoop → Outline
  | ⟨_, type, collection, body⟩ =>
    .beside (typeOutline? type) (.beside collection.outline body.outline)

def SwitchCase.outline : SwitchCase → Outline
  | ⟨labels, statements⟩ =>
    .beside (.inOrder (expressionOutlines labels)) (.inOrder (statementOutlines statements))

def TryStatement.outline : TryStatement → Outline
  | ⟨statements, catches, cleanup⟩ =>
    .beside (.inOrder (statementOutlines statements)) (.beside (.inOrder (catchOutlines catches))
      (.inOrder (statementOutlines? cleanup)))

def CatchBlock.outline : CatchBlock → Outline
  | ⟨_, type, statements⟩ =>
    .beside (typeOutline? type) (.inOrder (statementOutlines statements))

def UsingStatement.outline : UsingStatement → Outline
  | ⟨_, type, value, body⟩ => .beside (typeOutline? type) (.beside value.outline body.outline)

def expressionOutline? : Option Expression → Outline
  | none => .nothing
  | some e => e.outline

def expressionOutlines : List Expression → List Outline
  | [] => []
  | e :: more => e.outline :: expressionOutlines more

def argumentOutlines : List Argument → List Outline
  | [] => []
  | a :: more => a.outline :: argumentOutlines more

def parameterOutlines : List Parameter → List Outline
  | [] => []
  | p :: more => p.outline :: parameterOutlines more

def typeOutline? : Option TypeRef → Outline
  | none => .nothing
  | some t => t.outline

def typeOutlines : List TypeRef → List Outline
  | [] => []
  | t :: more => t.outline :: typeOutlines more

def statementOutline? : Option Statement → Outline
  | none => .nothing
  | some s => s.outline

def statementOutlines : List Statement → List Outline
  | [] => []
  | s :: more => s.outline :: statementOutlines more

def statementOutlines? : Option (List Statement) → List Outline
  | none => []
  | some statements => statementOutlines statements

def caseOutlines : List SwitchCase → List Outline
  | [] => []
  | c :: more => c.outline :: caseOutlines more

def catchOutlines : List CatchBlock → List Outline
  | [] => []
  | c :: more => c.outline :: catchOutlines more

end

/-- What lies below an attribute: its condition, its type and its arguments. -/
def Attribute.outline (a : Attribute) : Outline :=
  .beside (expressionOutline? a.condition)
    (.beside a.type.outline (.inOrder (argumentOutlines a.arguments)))

def GenericParameter.outline (g : GenericParameter) : Outline :=
  .inOrder (typeOutlines g.constraints)

def DeclarationInfo.outline (info : DeclarationInfo) : Outline :=
  .inOrder (info.attributes.map Attribute.outline)

def EnumCase.outline (c : EnumCase) : Outline := expressionOutline? c.value

def MethodBody.outline (b : MethodBody) : Outline :=
  .beside (typeOutline? b.returnType) (.beside (.inOrder (parameterOutlines b.parameters))
    (.beside (.inOrder (b.genericParameters.map GenericParameter.outline))
      (.inOrder (statementOutlines b.statements))))

def FieldMember.outline (f : FieldMember) : Outline :=
  .beside (typeOutline? f.type) (expressionOutline? f.initializer)

def PropertyMember.outline (p : PropertyMember) : Outline :=
  .beside p.type.outline (.beside (.inOrder (parameterOutlines p.parameters))
    (.beside (.inOrder (statementOutlines? p.getter))
      (.beside (.inOrder (statementOutlines? p.setter)) (expressionOutline? p.initializer))))

def EventMember.outline (e : EventMember) : Outline :=
  .beside e.type.outline (.beside (.inOrder (statementOutlines? e.add))
    (.inOrder (statementOutlines? e.remove)))

mutual

/-- The outline of a type definition. The condition under which it is compiled stands beside it:
the guard is no part of the definition. -/
def TypeDefinition.outline : TypeDefinition → Outline
  | ⟨id, name, info, form⟩ =>
    .beside (expressionOutline? info.condition)
      (.node (.definition ⟨id, name, info, form⟩) (.beside info.outline form.outline))

def TypeDefinitionForm.outline : TypeDefinitionForm → Outline
  | .aliasType actual _ => actual.outline
  | .enumeration base cases => .beside (typeOutline? base) (.inOrder (cases.map EnumCase.outline))
  | .classType body | .structType body | .interfaceType body | .extensionType body => body.outline
  | .blockType parameters returnType =>
    .beside (typeOutline? returnType) (.inOrder (parameterOutlines parameters))

def ClassBody.outline : ClassBody → Outline
  | ⟨genericParameters, ancestors, interfaces, members, _, _, _, _⟩ =>
    .beside (.inOrder (typeOutlines ancestors)) (.beside (.inOrder (typeOutlines interfaces))
      (.beside (.inOrder (genericParameters.map GenericParameter.outline))
        (.inOrder (memberOutlines members))))

/-- The outline of a member. The condition under which it is compiled stands beside it. -/
def Member.outline : Member → Outline
  | ⟨id, name, info, virtuality, isStatic, form⟩ =>
    .beside (expressionOutline? info.condition)
      (.node (.member ⟨id, name, info, virtuality, isStatic, form⟩)
        (.beside info.outline form.outline))

def MemberForm.outline : MemberForm → Outline
  | .constructor body | .destructor body | .finalizer body | .method body
  | .customOperator _ body => body.outline
  | .field field => field.outline
  | .property property => property.outline
  | .event event => event.outline
  | .nestedType nested => nested.outline

def memberOutlines : List Member → List Outline
  | [] => []
  | m :: more => m.outline :: memberOutlines more

end

def Import.outline (i : Import) : Outline := expressionOutline? i.condition

def CodeUnit.outline (u : CodeUnit) : Outline :=
  .node (.unit u) (.beside (.inOrder (u.imports.map Import.outline))
    (.beside (.inOrder (u.globals.map fun g => g.member.outline))
      (.inOrder (u.types.map TypeDefinition.outline))))

def Request.outline : Request → Outline
  | .unit u _ => u.outline
  | .definition t _ _ => t.outline
  | .member m _ _ _ => m.outline
  | .parameter p _ => p.outline
  | .statement s _ => s.outline
  | .statementText s => s.outline
  | .expressionText e => e.outline

/-! ### Unfolding outlines -/

theorem Expression.outline_eq (e : Expression) :
    e.outline = .node (.expression e) e.form.outline := by
  cases e; rfl

theorem Parameter.outline_eq (p : Parameter) :
    p.outline = .node (.parameter p) (.beside p.type.outline (expressionOutline? p.default)) := by
  cases p; rfl

theorem TypeRef.outline_eq (t : TypeRef) :
    t.outline = .node (.typeRef t)
      (.beside t.form.outline (.carried (expressionOutline? t.defaultValue))) := by
  cases t; rfl

theorem Statement.outline_eq (s : Statement) :
    s.outline = .node (.statement s) s.form.outline := by
  cases s; rfl

theorem TypeDefinition.outline_eq (t : TypeDefinition) :
    t.outline = .beside (expressionOutline? t.info.condition)
      (.node (.definition t) (.beside t.info.outline t.form.outline)) := by
  cases t; rfl

theorem Member.outline_eq (m : Member) :
    m.outline = .beside (expressionOutline? m.info.condition)
      (.node (.member m) (.beside m.info.outline m.form.outline)) := by
  cases m; rfl

theorem expressionOutlines_eq (es : List Expression) :
    expressionOutlines es = es.map Expression.outline := by
  induction es with
  | nil => rfl
  | cons e more ih => rw [expressionOutlines, ih, List.map_cons]

theorem argumentOutlines_eq (as : List Argument) :
    argumentOutlines as = as.map Argument.outline := by
  induction as with
  | nil => rfl
  | cons a more ih => rw [argumentOutlines, ih, List.map_cons]

theorem parameterOutlines_eq (ps : List Parameter) :
    parameterOutlines ps = ps.map Parameter.outline := by
  induction ps with
  | nil => rfl
  | cons p more ih => rw [parameterOutlines, ih, List.map_cons]

theorem typeOutlines_eq (ts : List TypeRef) : typeOutlines ts = ts.map TypeRef.outline := by
  induction ts with
  | nil => rfl
  | cons t more ih => rw [typeOutlines, ih, List.map_cons]

theorem statementOutlines_eq (ss : List Statement) :
    statementOutlines ss = ss.map Statement.outline := by
  induction ss with
  | nil => rfl
  | cons s more ih => rw [statementOutlines, ih, List.map_cons]

theorem caseOutlines_eq (cs : List SwitchCase) : caseOutlines cs = cs.map SwitchCase.outline := by
  induction cs with
  | nil => rfl
  | cons c more ih => rw [caseOutlines, ih, List.map_cons]

theorem catchOutlines_eq (cs : List CatchBlock) :
    catchOutlines cs = cs.map CatchBlock.outline := by
  induction cs with
  | nil => rfl
  | cons c more ih => rw [catchOutlines, ih, List.map_cons]

theorem memberOutlines_eq (ms : List Member) : memberOutlines ms = ms.map Member.outline := by
  induction ms with
  | nil => rfl
  | cons m more ih => rw [memberOutlines, ih, List.map_cons]

/-! ### Places of nodes -/

namespace Outline

/-- The keys of the nodes that are parts of the tree, one for every place of a node. -/
def keys : Outline → List NodeKey
  | nothing | carried _ => []
  | node n parts => n.key :: parts.keys
  | beside first second => first.keys ++ second.keys
  | before first rest => first.keys ++ rest.keys

/-- All nodes, those that type references carry included. -/
def nodes : Outline → List Node
  | nothing => []
  | node n parts => n :: parts.nodes
  | carried o => o.nodes
  | beside first second => first.nodes ++ second.nodes
  | before first rest => first.nodes ++ rest.nodes

/-- A node `b` has a place below a node `a`. -/
def Below (a b : NodeKey) : Outline → Prop
  | nothing | carried _ => False
  | node n parts => n.key = a ∧ b ∈ parts.keys ∨ parts.Below a b
  | beside first second => first.Below a b ∨ second.Below a b
  | before first rest => first.Below a b ∨ rest.Below a b

instance decidableBelow (a b : NodeKey) : (o : Outline) → Decidable (o.Below a b)
  | nothing | carried _ => .isFalse id
  | node n parts =>
    have := decidableBelow a b parts
    inferInstanceAs (Decidable (n.key = a ∧ b ∈ parts.keys ∨ parts.Below a b))
  | beside first second =>
    have := decidableBelow a b first
    have := decidableBelow a b second
    inferInstanceAs (Decidable (first.Below a b ∨ second.Below a b))
  | before first rest =>
    have := decidableBelow a b first
    have := decidableBelow a b rest
    inferInstanceAs (Decidable (first.Below a b ∨ rest.Below a b))

/-- A node `b` has a place that is not below a node `a`. -/
def Outside (a b : NodeKey) : Outline → Prop
  | nothing | carried _ => False
  | node n parts => n.key = b ∨ n.key ≠ a ∧ parts.Outside a b
  | beside first second => first.Outside a b ∨ second.Outside a b
  | before first rest => first.Outside a b ∨ rest.Outside a b

/-- In one list, an element with a node `a` comes before one with a node `b`. -/
def Before (a b : NodeKey) : Outline → Prop
  | nothing | carried _ => False
  | node _ parts => parts.Before a b
  | beside first second => first.Before a b ∨ second.Before a b
  | before first rest => a ∈ first.keys ∧ b ∈ rest.keys ∨ first.Before a b ∨ rest.Before a b

/-- A node has one place at most. -/
def Single (k : NodeKey) (o : Outline) : Prop := o.keys.count k ≤ 1

/-- The keys tell the nodes apart: only type references may stand at several places. -/
def Distinct (o : Outline) : Prop :=
  ∀ k : NodeKey, k.category ≠ .typeReference → o.Single k

theorem distinct_of_nodup {o : Outline}
    (h : (o.keys.filter (·.category ≠ .typeReference)).Nodup) : o.Distinct := by
  intro k hk
  rw [Single, ← List.count_filter (p := (·.category ≠ .typeReference)) (by simpa using hk)]
  exact List.nodup_iff_count.1 h k

theorem Below.mem {a b : NodeKey} {o : Outline} (h : o.Below a b) : a ∈ o.keys ∧ b ∈ o.keys := by
  induction o with
  | nothing => exact h.elim
  | node n parts ih =>
    rcases h with ⟨rfl, hb⟩ | h
    · exact ⟨List.mem_cons_self .., List.mem_cons_of_mem _ hb⟩
    · exact ⟨List.mem_cons_of_mem _ (ih h).1, List.mem_cons_of_mem _ (ih h).2⟩
  | carried => exact h.elim
  | beside first second ih ih' | before first rest ih ih' =>
    rcases h with h | h
    · exact ⟨List.mem_append_left _ (ih h).1, List.mem_append_left _ (ih h).2⟩
    · exact ⟨List.mem_append_right _ (ih' h).1, List.mem_append_right _ (ih' h).2⟩

theorem Before.mem {a b : NodeKey} {o : Outline} (h : o.Before a b) :
    a ∈ o.keys ∧ b ∈ o.keys := by
  induction o with
  | nothing => exact h.elim
  | node n parts ih => exact ⟨List.mem_cons_of_mem _ (ih h).1, List.mem_cons_of_mem _ (ih h).2⟩
  | carried => exact h.elim
  | beside first second ih ih' =>
    rcases h with h | h
    · exact ⟨List.mem_append_left _ (ih h).1, List.mem_append_left _ (ih h).2⟩
    · exact ⟨List.mem_append_right _ (ih' h).1, List.mem_append_right _ (ih' h).2⟩
  | before first rest ih ih' =>
    rcases h with ⟨ha, hb⟩ | h | h
    · exact ⟨List.mem_append_left _ ha, List.mem_append_right _ hb⟩
    · exact ⟨List.mem_append_left _ (ih h).1, List.mem_append_left _ (ih h).2⟩
    · exact ⟨List.mem_append_right _ (ih' h).1, List.mem_append_right _ (ih' h).2⟩

theorem Outside.mem {a b : NodeKey} {o : Outline} (h : o.Outside a b) : b ∈ o.keys := by
  induction o with
  | nothing | carried => exact h.elim
  | node n parts ih =>
    rcases h with rfl | ⟨-, h⟩
    · exact List.mem_cons_self
    · exact List.mem_cons_of_mem _ (ih h)
  | beside first second ih ih' | before first rest ih ih' =>
    rcases h with h | h
    · exact List.mem_append_left _ (ih h)
    · exact List.mem_append_right _ (ih' h)

/-- A node that is not below any `a` in a tree without `a` may stand anywhere. -/
theorem outside_of_not_mem {a b : NodeKey} {o : Outline} (ha : a ∉ o.keys) (hb : b ∈ o.keys) :
    o.Outside a b := by
  induction o with
  | nothing | carried => simp [keys] at hb
  | node n parts ih =>
    simp only [keys, List.mem_cons, not_or] at ha hb
    rcases hb with rfl | hb
    · exact .inl rfl
    · exact .inr ⟨fun h => ha.1 h.symm, ih ha.2 hb⟩
  | beside first second ih ih' | before first rest ih ih' =>
    simp only [keys, List.mem_append, not_or] at ha hb
    exact hb.imp (ih ha.1) (ih' ha.2)

/-- A node in two parts has two places. -/
theorem two_le_count {k : NodeKey} {x y : Outline} (hx : k ∈ x.keys) (hy : k ∈ y.keys) :
    2 ≤ x.keys.count k + y.keys.count k :=
  Nat.add_le_add (List.count_pos_iff.2 hx) (List.count_pos_iff.2 hy)

/-- The only place of a node is below another or it is not. -/
theorem Below.not_outside {a b : NodeKey} {o : Outline} (h : o.Below a b) (hb : o.Single b) :
    ¬ o.Outside a b := by
  intro ho
  induction o with
  | nothing | carried => exact h
  | node n parts ih =>
    simp only [Single, keys, List.count_cons] at hb ih
    have hmem : b ∈ parts.keys := by
      rcases h with ⟨-, hm⟩ | h
      · exact hm
      · exact h.mem.2
    have hpos := List.count_pos_iff.2 hmem
    rcases ho with hk | ⟨hne, ho⟩
    · simp only [hk, BEq.rfl, if_true] at hb
      omega
    · rcases h with ⟨hk, -⟩ | h
      · exact hne hk
      · exact ih h (by omega) ho
  | beside first second ih ih' | before first rest ih ih' =>
    -- Below the other in one part and outside it in the other, the node would have two places.
    simp only [Single, keys, List.count_append] at hb ih ih'
    rcases h with h | h <;> rcases ho with ho | ho
    · exact ih h (by omega) ho
    · have := two_le_count h.mem.2 ho.mem
      omega
    · have := two_le_count ho.mem h.mem.2
      omega
    · exact ih' h (by omega) ho

/-- A node that a tree does not have lies below nothing in it, and nothing below the node. -/
theorem not_below_of_not_mem {a b : NodeKey} {o : Outline} (h : a ∉ o.keys) :
    ¬ o.Below a b ∧ ¬ o.Below b a :=
  ⟨fun hl => h hl.mem.1, fun hl => h hl.mem.2⟩

/-- Two elements of a list are not one node, and do not lie below each other. -/
theorem Before.apart {a b : NodeKey} {o : Outline} (h : o.Before a b) (ha : o.Single a)
    (hb : o.Single b) : a ≠ b ∧ ¬ o.Below a b ∧ ¬ o.Below b a := by
  -- A node with one place is not in two parts.
  have once : ∀ {k : NodeKey} {x y : Outline}, x.keys.count k + y.keys.count k ≤ 1 →
      k ∈ x.keys → k ∉ y.keys := by
    intro k x y hk hx hy
    have := two_le_count hx hy
    omega
  have both : ∀ {x y : Outline}, ¬ x.Below a b ∧ ¬ x.Below b a → ¬ y.Below a b ∧ ¬ y.Below b a →
      ¬ (x.Below a b ∨ y.Below a b) ∧ ¬ (x.Below b a ∨ y.Below b a) :=
    fun hx hy => ⟨fun hl => hl.elim hx.1 hy.1, fun hl => hl.elim hx.2 hy.2⟩
  induction o with
  | nothing | carried => exact h.elim
  | node n parts ih =>
    have hmem := Before.mem (o := parts) h
    simp only [Single, keys, List.count_cons] at ha hb ih
    obtain ⟨h1, h2, h3⟩ := ih h (by omega) (by omega)
    refine ⟨h1, ?_, ?_⟩
    · rintro (⟨hk, -⟩ | hl)
      · have := List.count_pos_iff.2 hmem.1
        simp only [hk, BEq.rfl, if_true] at ha
        omega
      · exact h2 hl
    · rintro (⟨hk, -⟩ | hl)
      · have := List.count_pos_iff.2 hmem.2
        simp only [hk, BEq.rfl, if_true] at hb
        omega
      · exact h3 hl
  | beside x y ih ih' =>
    simp only [Single, keys, List.count_append] at ha hb ih ih'
    rcases h with h | h
    · obtain ⟨h1, h2⟩ := ih h (by omega) (by omega)
      exact ⟨h1, both h2 (not_below_of_not_mem (once ha h.mem.1))⟩
    · obtain ⟨h1, h2⟩ := ih' h (by omega) (by omega)
      exact ⟨h1, both (not_below_of_not_mem (once (Nat.add_comm _ _ ▸ ha) h.mem.1)) h2⟩
  | before x y ih ih' =>
    simp only [Single, keys, List.count_append] at ha hb ih ih'
    rcases h with ⟨hx, hy⟩ | h | h
    -- Of the two, the first element has one and the rest the other, so neither part has both.
    · have hay := once ha hx
      have hbx := once (Nat.add_comm _ _ ▸ hb) hy
      refine ⟨fun he => hay (he ▸ hy), both ?_ (not_below_of_not_mem hay)⟩
      exact ⟨(not_below_of_not_mem hbx).2, (not_below_of_not_mem hbx).1⟩
    · obtain ⟨h1, h2⟩ := ih h (by omega) (by omega)
      exact ⟨h1, both h2 (not_below_of_not_mem (once ha h.mem.1))⟩
    · obtain ⟨h1, h2⟩ := ih' h (by omega) (by omega)
      exact ⟨h1, both (not_below_of_not_mem (once (Nat.add_comm _ _ ▸ ha) h.mem.1)) h2⟩

/-! ### The order of parts -/

/-- Outlines that say the same of the places of nodes. -/
structure Alike (x y : Outline) : Prop where
  count : ∀ k, x.keys.count k = y.keys.count k
  below : ∀ a b, x.Below a b ↔ y.Below a b
  outside : ∀ a b, x.Outside a b ↔ y.Outside a b
  before : ∀ a b, x.Before a b ↔ y.Before a b
  nodes : ∀ m, m ∈ x.nodes ↔ m ∈ y.nodes

namespace Alike

variable {x y z x' y' : Outline}

theorem refl (x : Outline) : x.Alike x :=
  ⟨fun _ => rfl, fun _ _ => .rfl, fun _ _ => .rfl, fun _ _ => .rfl, fun _ => .rfl⟩

theorem symm (h : x.Alike y) : y.Alike x :=
  ⟨fun k => (h.count k).symm, fun a b => (h.below a b).symm, fun a b => (h.outside a b).symm,
    fun a b => (h.before a b).symm, fun m => (h.nodes m).symm⟩

theorem trans (h : x.Alike y) (h' : y.Alike z) : x.Alike z :=
  ⟨fun k => (h.count k).trans (h'.count k), fun a b => (h.below a b).trans (h'.below a b),
    fun a b => (h.outside a b).trans (h'.outside a b),
    fun a b => (h.before a b).trans (h'.before a b), fun m => (h.nodes m).trans (h'.nodes m)⟩

theorem beside (h : x.Alike x') (h' : y.Alike y') :
    (Outline.beside x y).Alike (.beside x' y') where
  count k := by simp only [keys, List.count_append, h.count, h'.count]
  below a b := or_congr (h.below a b) (h'.below a b)
  outside a b := or_congr (h.outside a b) (h'.outside a b)
  before a b := or_congr (h.before a b) (h'.before a b)
  nodes m := by simp only [Outline.nodes, List.mem_append, h.nodes, h'.nodes]

theorem comm (x y : Outline) : (Outline.beside x y).Alike (.beside y x) where
  count k := by simp only [keys, List.count_append, Nat.add_comm]
  below _ _ := or_comm
  outside _ _ := or_comm
  before _ _ := or_comm
  nodes m := by simp only [Outline.nodes, List.mem_append, or_comm]

theorem assoc (x y z : Outline) :
    (Outline.beside (.beside x y) z).Alike (.beside x (.beside y z)) where
  count k := by simp only [keys, List.append_assoc]
  below _ _ := or_assoc
  outside _ _ := or_assoc
  before _ _ := or_assoc
  nodes m := by simp only [Outline.nodes, List.append_assoc]

/-- A part with no nodes may be left out. -/
theorem beside_nothing (x : Outline) : (Outline.beside x .nothing).Alike x where
  count k := by simp only [keys, List.append_nil]
  below _ _ := iff_of_eq (or_false _)
  outside _ _ := iff_of_eq (or_false _)
  before _ _ := iff_of_eq (or_false _)
  nodes m := by simp only [Outline.nodes, List.append_nil]

theorem mem_keys (h : x.Alike y) (k : NodeKey) : k ∈ x.keys ↔ k ∈ y.keys := by
  rw [← List.count_pos_iff, h.count, List.count_pos_iff]

theorem before_congr (h : x.Alike x') (h' : y.Alike y') :
    (Outline.before x y).Alike (.before x' y') where
  count := (h.beside h').count
  below := (h.beside h').below
  outside := (h.beside h').outside
  before a b := or_congr (and_congr (h.mem_keys a) (h'.mem_keys b)) ((h.beside h').before a b)
  nodes := (h.beside h').nodes

/-- The elements of a list may be taken together. -/
theorem before_assoc (x y z : Outline) :
    (Outline.before (.before x y) z).Alike (.before x (.before y z)) where
  count := (assoc x y z).count
  below := (assoc x y z).below
  outside := (assoc x y z).outside
  before a b := by
    simp only [Outline.Before, keys, List.mem_append]
    grind
  nodes := (assoc x y z).nodes

theorem before_nothing (x : Outline) : (Outline.before x .nothing).Alike x where
  count := (beside_nothing x).count
  below := (beside_nothing x).below
  outside := (beside_nothing x).outside
  before a b := by simp [Outline.Before, keys]
  nodes := (beside_nothing x).nodes

theorem nothing_before (x : Outline) : (Outline.before .nothing x).Alike x where
  count := ((comm .nothing x).trans (beside_nothing x)).count
  below := ((comm .nothing x).trans (beside_nothing x)).below
  outside := ((comm .nothing x).trans (beside_nothing x)).outside
  before a b := by simp [Outline.Before, keys]
  nodes := ((comm .nothing x).trans (beside_nothing x)).nodes

end Alike

end Outline

end SourcePrinter
