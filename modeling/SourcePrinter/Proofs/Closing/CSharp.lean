import SourcePrinter.Proofs.Closing.Brace

/-! The rules of C# for expressions, types, statements and parameters give closed documents. -/

namespace SourcePrinter

namespace CSharp

open Doc

attribute [local simp] isInk isOpening isClosing Reading.isIdle

variable {m : Reading} {c : Context} (h : c.Closes m)

/-! ### Expressions -/

theorem overlooks_baseMark (base : Nat) : ∀ mark ∈ baseMark base, m.Overlooks mark := by
  intro mark hmark
  unfold baseMark at hmark
  split at hmark <;> cases hmark <;> exact m.overlooks_of_chars rfl

theorem overlooks_binarySymbol {operator : BinaryOperator} :
    ∀ s ∈ binarySymbol operator, m.Overlooks s := by
  intro s hs
  unfold binarySymbol at hs
  split at hs
  · cases hs
    exact m.overlooks_of_chars rfl
  · cases hs
    exact m.overlooks_of_chars rfl
  · exact Brace.overlooks_binarySymbol s hs

include h

theorem array_closed {elements : List Expression} {elementType : Option TypeRef}
    (he : ∀ e ∈ elements, e.outline.Overlooked m) (ht : (typeOutline? elementType).Overlooked m) :
    (array c elements elementType).Closed m := by
  have helements := h.expressions he
  refine .append ?_ ?_
  · cases elementType with
    | none =>
      intro scope opened
      cases elements with
      | nil => simp
      | cons => simp
    | some t =>
      have htype := h.typeRef ht
      intro scope opened
      simp [htype scope]
  · split
    · intro scope opened
      simp
    · intro scope opened
      simp [helements scope]

theorem typeOrObject_closed {t : Option TypeRef} (ht : (typeOutline? t).Overlooked m) :
    (typeOrObject c t).Closed m := by
  cases t with
  | none => exact .words rfl
  | some t => exact h.typeRef ht

theorem dictionary_closed {d : DictionaryLiteral} (ho : d.outline.Overlooked m) :
    (dictionary c d).Closed m := by
  obtain ⟨keys, values, keyType, valueType⟩ := d
  simp only [DictionaryLiteral.outline, Outline.overlooked_beside] at ho
  have hkey := typeOrObject_closed h ho.1
  have hvalue := typeOrObject_closed h ho.2.1
  refine .append ?_ ?_
  · intro scope opened
    simp [hkey scope, hvalue scope]
  · split
    · intro scope opened
      simp
    · have hbraces : ∀ entries : Doc, entries.Closed m →
          (text " \x7b " ++ entries ++ text " \x7d").Closed m := by
        intro entries hentries scope opened
        simp [hentries scope]
      refine hbraces _ (Brace.entries_closed h ho.2.2 fun k v hk hv => ?_)
      intro scope opened
      simp [hk scope, hv scope]

theorem typeCast_closed {cast : TypeCast} (ho : cast.outline.Overlooked m) :
    (typeCast c cast).Closed m := by
  obtain ⟨value, type, throws⟩ := cast
  simp only [TypeCast.outline, Outline.overlooked_beside] at ho
  have hvalue := h.expression ho.1
  have htype := h.typeRef ho.2
  unfold typeCast
  split
  · refine .append ?_ ?_
    · intro scope opened
      simp [htype scope]
    · split
      · exact hvalue
      · intro scope opened
        simp [hvalue scope]
  · intro scope opened
    simp [hvalue scope, htype scope]

theorem anonymousMethod_closed {x : AnonymousMethod} (ho : x.outline.Overlooked m) :
    (expressions.anonymousMethod c x).Closed m := by
  obtain ⟨parameters, returnType, ss⟩ := x
  simp only [AnonymousMethod.outline, Outline.overlooked_beside, overlooked_statements] at ho
  have hparameters := Brace.parameterList_closed h ho.1
  have hstatements := h.statements ho.2.2
  intro scope opened
  simp [expressions, hparameters scope, hstatements scope]

theorem expressionRule_closed {e : Expression} (ho : e.outline.Overlooked m) :
    (Language.csharp.expressionRule c e).Closed m := by
  obtain ⟨id, form⟩ := e
  rw [Expression.outline_eq, Outline.overlooked_node] at ho
  obtain ⟨ht, ho⟩ := ho
  cases form with
  | nil | selfReference | inherited => exact .words rfl
  | boolean value => exact Brace.booleanLiteral_closed value
  | integer value base =>
    simp only [Language.expressionRule]
    split
    · exact Brace.integerLiteral_closed overlooks_baseMark value base
    · exact fun _ _ => rfl
  | float value => exact Brace.floatLiteral_closed value
  | string s => exact Brace.stringLiteral_closed _ (ht s List.mem_cons_self)
  | character value =>
    simp only [Language.expressionRule, Language.csharp, expressions, character]
    split
    · exact Brace.characterLiteral_closed rfl _ (ht _ List.mem_cons_self)
    · exact fun _ _ => rfl
  | array elements elementType =>
    simp only [ExpressionForm.outline, Outline.overlooked_beside, overlooked_expressions] at ho
    exact array_closed h ho.2 ho.1
  | dictionary literal =>
    simp only [Language.expressionRule]
    split
    · exact dictionary_closed h ho
    · exact fun _ _ => rfl
  | tuple members =>
    have hmembers := h.expressions (overlooked_expressions.1 ho)
    intro scope opened
    simp [Language.expressionRule, Language.csharp, expressions, hmembers scope]
  | result => exact h.unsupported rfl rfl
  | identifier name | localVariable name => exact h.identifier (ht name List.mem_cons_self)
  | field access => exact Brace.field_closed h ho (ht _ List.mem_cons_self)
  | property access =>
    obtain ⟨hname, harguments⟩ := List.forall_mem_cons.1 ht
    exact Brace.property_closed h ho hname harguments
  | call x =>
    obtain ⟨hname, harguments⟩ := List.forall_mem_cons.1 ht
    exact Brace.call_closed h ho hname harguments
  | newInstance type arguments =>
    simp only [ExpressionForm.outline, Outline.overlooked_beside] at ho
    have htype := h.typeRef ho.1
    have harguments := Brace.arguments_closed h ho.2 ht
    intro scope opened
    simp [Language.expressionRule, Language.csharp, expressions, htype scope, harguments scope]
  | element array indices =>
    simp only [ExpressionForm.outline, Outline.overlooked_beside, overlooked_expressions] at ho
    exact Brace.element_closed h ho.1 ho.2
  | enumValue type value =>
    have htype := h.typeRef (t := type) ho
    have hname := h.identifier (ht value List.mem_cons_self)
    intro scope opened
    simp [Language.expressionRule, Language.csharp, expressions, ExpressionRules.plain,
      htype scope, hname scope]
  | typeReference type => exact h.typeRef ho
  | typeOf type | sizeOf type | defaultOf type =>
    have htype := h.typeRef (t := type) ho
    intro scope opened
    simp [Language.expressionRule, Language.csharp, expressions, htype scope]
  | typeCheck value type =>
    simp only [ExpressionForm.outline, Outline.overlooked_beside] at ho
    have hvalue := h.expression ho.1
    have htype := h.typeRef ho.2
    intro scope opened
    simp [Language.expressionRule, Language.csharp, expressions, hvalue scope, htype scope]
  | typeCast cast => exact typeCast_closed h ho
  | binary lhs operator rhs =>
    simp only [ExpressionForm.outline, Outline.overlooked_beside] at ho
    exact Brace.binary_closed h overlooks_binarySymbol ho.1 ho.2 operator
  | unary operator value => exact Brace.unary_closed h ho operator
  | conditional condition ifTrue ifFalse =>
    simp only [ExpressionForm.outline, Outline.overlooked_beside] at ho
    exact Brace.conditional_closed h ho.1 ho.2.1 ho.2.2
  | parentheses inner | await inner | addressOf inner | dereference inner =>
    have hinner := h.expression (e := inner) ho
    intro scope opened
    simp [Language.expressionRule, Language.csharp, expressions, hinner scope]
  | range start stop inclusive =>
    simp only [ExpressionForm.outline, Outline.overlooked_beside] at ho
    have hstart := h.expression ho.1
    have hstop := h.expression ho.2
    cases inclusive with
    | true =>
      have hdetail : Plain "inclusive upper bound" := .of_chars rfl
      exact h.unsupported_detail rfl rfl ⟨hdetail, m.overlooks_of_chars rfl⟩
    | false =>
      intro scope opened
      simp [Language.expressionRule, Language.csharp, expressions, hstart scope, hstop scope]
  | anonymousMethod method => exact anonymousMethod_closed h ho
  | raw s => exact .text (ht s List.mem_cons_self)

/-! ### Types -/

omit h in
theorem nullableMark_closed (t : TypeRef) : (nullableMark t).Closed m :=
  .when (.words rfl) _

theorem inlineBlock_closed {block : InlineBlock} (ho : block.outline.Overlooked m) :
    (inlineBlock c block).Closed m := by
  obtain ⟨parameters, returnType, kind⟩ := block
  simp only [InlineBlock.outline, Outline.overlooked_beside, overlooked_types] at ho
  unfold inlineBlock
  cases returnType with
  | none =>
    have hparameters := h.typeRefs ho.1
    simp only
    split
    · exact .words rfl
    · intro scope opened
      simp [hparameters scope]
  | some result =>
    have hresult : ∀ t ∈ parameters ++ [result], t.outline.Overlooked m := by
      intro t ht
      rcases List.mem_append.1 ht with ht | ht
      · exact ho.1 t ht
      · rw [List.mem_singleton.1 ht]
        exact ho.2
    have htypes := h.typeRefs hresult
    intro scope opened
    simp [htypes scope]

theorem typeRule_closed {t : TypeRef} (ho : t.form.outline.Overlooked m)
    (ht : ∀ s ∈ t.form.texts, m.Overlooks s) : (Language.csharp.typeRule c t).Closed m := by
  obtain ⟨id, form, explicit, implied, isClass, defaultValue⟩ := t
  cases form with
  | named type =>
    obtain ⟨name, space, types⟩ := type
    have hname := h.typeName (n := ⟨name, space, types⟩) (ht name List.mem_cons_self)
      fun s hs => ht s (List.mem_cons_of_mem _ (Option.mem_toList.2 hs))
    have htypes := Brace.genericArguments_closed h (overlooked_types.1 ho)
    exact (hname.append htypes).append (nullableMark_closed _)
  | predefined type =>
    have hname : m.Overlooks (predefinedName type) := by
      cases type <;> exact m.overlooks_of_chars rfl
    exact .append (.text hname) (nullableMark_closed _)
  | pointer target kind =>
    have htarget := h.typeRef (t := target) ho
    cases kind with
    | pointer => exact htarget.append (.words rfl)
    | reference => exact .append (.words rfl) htarget
  | array element bounds kind =>
    refine .append (.append (h.typeRef ho) ?_) (nullableMark_closed _)
    have hcommas : ∀ (n : Nat) (opened rest : List Char),
        m.read opened (List.replicate n ',' ++ rest) = m.read opened rest := by
      refine fun n opened rest => m.read_append_of_overlooks opened (fun d hd => ?_) rest
      rw [List.eq_of_mem_replicate hd]
      exact m.overlooks_of_idle rfl
    intro scope opened
    simp [hcommas]
  | dictionary key value =>
    simp only [TypeForm.outline, Outline.overlooked_beside] at ho
    have hkey := h.typeRef ho.1
    have hvalue := h.typeRef ho.2
    intro scope opened
    simp [Language.typeRule, Language.csharp, types, hkey scope, hvalue scope]
  | tuple members =>
    have hmembers := h.typeRefs (overlooked_types.1 ho)
    refine .append ?_ (nullableMark_closed _)
    intro scope opened
    simp [hmembers scope]
  | sequence element =>
    have helement := h.typeRef (t := element) ho
    intro scope opened
    simp [Language.typeRule, Language.csharp, types, helement scope]
  | kindOf target | constant target => exact h.typeRef ho
  | inlineBlock block => exact inlineBlock_closed h ho
  | range start stop => exact h.unsupported rfl rfl
  | unknown => exact .words rfl

/-! ### Statements -/

theorem typeOrVar_closed {t : Option TypeRef} (ht : (typeOutline? t).Overlooked m) :
    (typeOrVar c t).Closed m := by
  cases t with
  | none => exact .words rfl
  | some t => exact h.typeRef ht

theorem declare_closed {d : VariableDeclaration} (ho : d.outline.Overlooked m)
    (ht : m.Overlooks d.name) : (declare c d).Closed m := by
  obtain ⟨name, type, value, constant, readOnly⟩ := d
  simp only [VariableDeclaration.outline, Outline.overlooked_beside] at ho
  have hconstant : (Doc.when constant (text "const ")).Closed m :=
    .when (.words rfl) _
  have hvalue : (whenSome value fun e => text " = " ++ c.expression e).Closed m :=
    h.valueAfter (m.overlooks_of_chars rfl) ho.2
  refine .append (.append ?_ hvalue) (.wordsLine rfl)
  refine .append (.append (.append hconstant ?_) (.words rfl)) (h.identifier ht)
  cases type with
  | none =>
    refine .text ?_
    split
    · exact m.overlooks_of_chars rfl
    · exact m.overlooks_of_chars rfl
  | some t => exact h.typeRef ho.1

theorem forTo_closed {l : CountingLoop} (ho : l.outline.Overlooked m)
    (ht : m.Overlooks l.counter) : (forTo c l).Closed m := by
  obtain ⟨counter, type, start, stop, step, direction, body⟩ := l
  simp only [CountingLoop.outline, Outline.overlooked_beside] at ho
  obtain ⟨htype, hstart, hstop, hstep, hbody⟩ := ho
  have htype := typeOrVar_closed h htype
  have hcounter := h.identifier ht
  have hstart := h.expression hstart
  have hstop := h.expression hstop
  have hbody := Brace.body_closed h hbody
  intro scope opened
  cases step with
  | none =>
    cases direction <;> simp [forTo, htype scope, hcounter scope, hstart scope, hstop scope,
      hbody scope]
  | some e =>
    have hstep := h.expression hstep
    cases direction <;> simp [forTo, htype scope, hcounter scope, hstart scope, hstop scope,
      hstep scope, hbody scope]

theorem forEach_closed {l : CollectionLoop} (ho : l.outline.Overlooked m)
    (ht : m.Overlooks l.element) : (forEach c l).Closed m := by
  obtain ⟨element, type, collection, body⟩ := l
  simp only [CollectionLoop.outline, Outline.overlooked_beside] at ho
  have htype := typeOrVar_closed h ho.1
  have helement := h.identifier ht
  have hcollection := h.expression ho.2.1
  have hbody := Brace.body_closed h ho.2.2
  intro scope opened
  simp [forEach, htype scope, helement scope, hcollection scope, hbody scope]

theorem caseBody_closed {ss : List Statement} (ho : ∀ s ∈ ss, s.outline.Overlooked m) :
    (caseBody c ss).Closed m := by
  have hbody := h.statements ho
  refine Closed.append hbody (.when ?_ _)
  exact .wordsLine rfl

theorem switchCase_closed {s : SwitchCase} (ho : s.outline.Overlooked m) :
    (switchCase c s).Closed m := by
  obtain ⟨labels, ss⟩ := s
  simp only [SwitchCase.outline, Outline.overlooked_beside, overlooked_expressions,
    overlooked_statements] at ho
  refine .append (.concat fun e he => ?_) (caseBody_closed h ho.2)
  refine .append (.append (.words rfl) ?_) (.wordsLine rfl)
  exact h.expression (ho.1 e he)

theorem switch_closed {value : Expression} {cases : List SwitchCase}
    {default : Option (List Statement)} (hv : value.outline.Overlooked m)
    (hc : ∀ s ∈ cases, s.outline.Overlooked m)
    (hd : ∀ ss ∈ default, ∀ s ∈ ss, s.outline.Overlooked m) :
    (switch c value cases default).Closed m := by
  have hvalue := h.expression hv
  have hcases : (concat (cases.map (switchCase c)) ++
      whenSome default fun ss => line "default:" ++ caseBody c ss).Closed m := by
    refine .append (.concat fun s hs => switchCase_closed h (hc s hs)) (.whenSome fun ss hss => ?_)
    exact .append (.wordsLine rfl) (caseBody_closed h (hd ss hss))
  have hbody := Brace.braced_closed hcases
  intro scope opened
  simp only [switch, Doc.read_append, hbody scope]
  simp [hvalue scope]

theorem handler_closed {x : CatchBlock} (ho : x.outline.Overlooked m)
    (ht : ∀ name ∈ x.name, m.Overlooks name) : (handler c x).Closed m := by
  obtain ⟨name, type, ss⟩ := x
  simp only [CatchBlock.outline, Outline.overlooked_beside, overlooked_type?,
    overlooked_statements] at ho
  have hname : (whenSome name fun name => text " " ++ c.identifier name).Closed m :=
    .whenSome fun name hname => .append (.words rfl) (h.identifier (ht name hname))
  have htype : (whenSome type fun t => text " (" ++ c.typeRef t ++
      whenSome name (fun name => text " " ++ c.identifier name) ++ text ")").Closed m := by
    refine .whenSome fun t hmem => ?_
    have htype := h.typeRef (ho.1 t hmem)
    intro scope opened
    simp [htype scope, hname scope]
  have hblock := Brace.block_closed h ho.2
  exact .append (.append (.append (.words rfl) htype) fun _ _ => rfl) hblock

theorem tryCatch_closed {t : TryStatement} (ho : t.outline.Overlooked m)
    (ht : ∀ s ∈ t.catches.filterMap (·.name), m.Overlooks s) : (tryCatch c t).Closed m := by
  obtain ⟨ss, catches, cleanup⟩ := t
  simp only [TryStatement.outline, Outline.overlooked_beside, overlooked_statements,
    overlooked_catches, overlooked_statements?] at ho
  have hcatches : (concat (catches.map (handler c))).Closed m := by
    refine .concat fun x hx => handler_closed h (ho.2.1 x hx) fun name hname => ?_
    exact ht name (List.mem_filterMap.2 ⟨x, hx, hname⟩)
  have hcleanup : (whenSome cleanup fun ss => line "finally" ++ Brace.block c ss).Closed m := by
    refine .whenSome fun ss hss => .append (.wordsLine rfl) ?_
    exact Brace.block_closed h (ho.2.2 ss hss)
  have htry : (line "try" ++ Brace.block c ss).Closed m :=
    .append (.wordsLine rfl) (Brace.block_closed h ho.1)
  exact (htry.append hcatches).append hcleanup

theorem statementRule_closed {s : Statement} (ho : s.outline.Overlooked m) :
    (Language.csharp.statementRule c s).Closed m := by
  obtain ⟨id, form⟩ := s
  rw [Statement.outline_eq, Outline.overlooked_node] at ho
  obtain ⟨ht, ho⟩ := ho
  cases form with
  | block ss => exact Brace.block_closed h (overlooked_statements.1 ho)
  | expression value => exact Brace.expressionStatement_closed h ho
  | declare declaration => exact declare_closed h ho (ht _ List.mem_cons_self)
  | assignment target value =>
    simp only [StatementForm.outline, Outline.overlooked_beside] at ho
    exact Brace.assignment_closed h ho.1 ho.2
  | conditional condition thenBranch elseBranch =>
    simp only [StatementForm.outline, Outline.overlooked_beside] at ho
    exact Brace.conditionalStatement_closed h ho.1 ho.2.1 ho.2.2
  | whileLoop condition body =>
    simp only [StatementForm.outline, Outline.overlooked_beside] at ho
    exact Brace.whileLoop_closed h ho.1 ho.2
  | doWhile condition body =>
    simp only [StatementForm.outline, Outline.overlooked_beside] at ho
    exact Brace.doWhile_closed h ho.2 ho.1
  | infiniteLoop body => exact Brace.whileLoop_closed h overlooked_endless ho
  | forTo loop => exact forTo_closed h ho (ht _ List.mem_cons_self)
  | forEach loop => exact forEach_closed h ho (ht _ List.mem_cons_self)
  | switch value cases default =>
    simp only [StatementForm.outline, Outline.overlooked_beside, overlooked_cases,
      overlooked_statements?] at ho
    exact switch_closed h ho.1 ho.2.1 ho.2.2
  | tryCatch attempt => exact tryCatch_closed h ho ht
  | throwing value | returning value =>
    exact Brace.keywordStatement_closed h (m.overlooks_of_chars rfl) ho
  | breakLoop | continueLoop =>
    exact Brace.keywordStatement_closed h (m.overlooks_of_chars rfl) Outline.overlooked_nothing
  | locking value body =>
    simp only [StatementForm.outline, Outline.overlooked_beside] at ho
    have hvalue := h.expression ho.1
    have hbody := Brace.body_closed h ho.2
    intro scope opened
    simp [Language.statementRule, Language.csharp, statements, hvalue scope, hbody scope]
  | «using» resource =>
    obtain ⟨name, type, value, body⟩ := resource
    simp only [StatementForm.outline, UsingStatement.outline, Outline.overlooked_beside] at ho
    have htype := typeOrVar_closed h ho.1
    have hname := h.identifier (ht name List.mem_cons_self)
    have hvalue := h.expression ho.2.1
    have hbody := Brace.body_closed h ho.2.2
    intro scope opened
    simp [Language.statementRule, Language.csharp, statements, htype scope, hname scope,
      hvalue scope, hbody scope]
  | comment x => exact h.comment ht
  | empty => exact .wordsLine rfl
  | raw s => exact .text (ht s List.mem_cons_self)

/-! ### Parameters -/

theorem parameter_closed {p : Parameter} (ho : p.outline.Overlooked m) :
    (parameter c p).Closed m := by
  rw [Parameter.outline_eq, Outline.overlooked_node, Outline.overlooked_beside] at ho
  obtain ⟨ht, htype, hdefault⟩ := ho
  have hmodifier : m.Overlooks (modifierWord p.modifier) := by
    cases p.modifier <;> exact m.overlooks_of_chars rfl
  have hname := h.identifier (ht p.name List.mem_cons_self)
  refine .append (.append (.append ?_ (.words rfl)) hname) ?_
  · exact .append (.text hmodifier) (h.typeRef htype)
  · exact h.valueAfter (m.overlooks_of_chars rfl) hdefault

end CSharp

end SourcePrinter
