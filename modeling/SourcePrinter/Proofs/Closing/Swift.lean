import SourcePrinter.Proofs.Closing.Brace
import SourcePrinter.Language.Swift

/-! The rules of Swift for expressions, types, statements and parameters give closed documents. -/

namespace SourcePrinter

namespace Swift

open Doc

attribute [local simp] isInk isOpening isClosing Reading.isIdle

section

variable {m : Reading}

theorem overlooks_baseMark (base : Nat) : ∀ mark ∈ baseMark base, m.Overlooks mark := by
  intro mark hmark
  unfold baseMark at hmark
  split at hmark <;> cases hmark <;> exact m.overlooks_of_chars rfl

theorem overlooks_binarySymbol {operator : BinaryOperator} :
    ∀ s ∈ binarySymbol operator, m.Overlooks s := by
  intro s hs
  unfold binarySymbol at hs
  split at hs
  · cases hs
    exact m.overlooks_of_chars rfl
  · cases hs
    exact m.overlooks_of_chars rfl
  · exact Brace.overlooks_binarySymbol s hs

theorem overlooks_caseName {name : String} (hn : m.Overlooks name) (lowercaseCases : Bool) :
    m.Overlooks (caseName lowercaseCases name) := by
  cases lowercaseCases with
  | false => exact hn
  | true => exact overlooks_lowercaseFirst hn

theorem optionalMark_closed (t : TypeRef) : (optionalMark t).Closed m := by
  unfold optionalMark
  split
  · exact .words rfl
  · exact .words rfl
  · exact .words rfl
  · exact fun _ _ => rfl
  · exact fun _ _ => rfl

theorem braces_closed {d : Doc} (hd : d.Closed m) : (braces d).Closed m := by
  intro scope opened
  simp [braces, hd scope]

variable {c : Context} (h : c.Closes m)

include h

/-! ### Types -/

theorem presentType_closed {t : TypeRef} (ho : t.outline.Overlooked m) :
    (presentType c t).Closed m :=
  h.typeRefAs ho _

theorem resultType_closed {t : Option TypeRef} (ht : (typeOutline? t).Overlooked m) :
    (resultType c t).Closed m := by
  cases t with
  | none => exact .words rfl
  | some result =>
    unfold resultType
    simp only
    split
    · exact .words rfl
    · exact h.typeRef ht

theorem returnClause_closed {t : Option TypeRef} (ht : (typeOutline? t).Overlooked m) :
    (returnClause c t).Closed m := by
  refine .whenSome fun result hresult => .when (.append (.words rfl) ?_) _
  exact h.typeRef (overlooked_type?.1 ht result hresult)

theorem functionType_closed {block : InlineBlock} (ho : block.outline.Overlooked m) :
    (functionType c block).Closed m := by
  obtain ⟨parameters, returnType, kind⟩ := block
  simp only [InlineBlock.outline, Outline.overlooked_beside, overlooked_types] at ho
  have hparameters := h.typeRefs ho.1
  have hresult := resultType_closed h ho.2
  intro scope opened
  simp [functionType, hparameters scope, hresult scope]

theorem typeRule_closed {lowercaseCases : Bool} {t : TypeRef} (ho : t.form.outline.Overlooked m)
    (ht : ∀ s ∈ t.form.texts, m.Overlooks s) :
    ((Language.swift lowercaseCases).typeRule c t).Closed m := by
  have hmark := optionalMark_closed (m := m) t
  obtain ⟨id, form, explicit, implied, isClass, defaultValue⟩ := t
  cases form with
  | named type =>
    obtain ⟨name, space, types⟩ := type
    have hname := h.typeName (n := ⟨name, space, types⟩) (ht name List.mem_cons_self)
      fun s hs => ht s (List.mem_cons_of_mem _ (Option.mem_toList.2 hs))
    have htypes := Brace.genericArguments_closed h (overlooked_types.1 ho)
    exact (hname.append htypes).append hmark
  | predefined type =>
    have hname : m.Overlooks (predefinedName type) := by
      cases type <;> exact m.overlooks_of_chars rfl
    exact .append (.text hname) (hmark.when _)
  | pointer target kind =>
    have htarget := h.typeRef (t := target) ho
    cases kind with
    | pointer =>
      refine .append (.append (.append (.words rfl) htarget) ?_) hmark
      exact .words rfl
    | reference => exact htarget
  | array element bounds kind =>
    have helement := h.typeRef (t := element) ho
    refine .append ?_ hmark
    intro scope opened
    simp [helement scope]
  | dictionary key value =>
    simp only [TypeForm.outline, Outline.overlooked_beside] at ho
    have hkey := h.typeRef ho.1
    have hvalue := h.typeRef ho.2
    refine .append ?_ hmark
    intro scope opened
    simp [hkey scope, hvalue scope]
  | tuple members =>
    have hmembers := h.typeRefs (overlooked_types.1 ho)
    refine .append ?_ hmark
    intro scope opened
    simp [hmembers scope]
  | sequence element =>
    have helement := h.typeRef (t := element) ho
    refine .append ?_ hmark
    intro scope opened
    simp [helement scope]
  | kindOf target | constant target => exact h.typeRef ho
  | inlineBlock block =>
    have hfunction : (functionType c block).Closed m := functionType_closed h ho
    simp only [Language.typeRule, Language.swift, types]
    split
    · refine .append ?_ hmark
      intro scope opened
      simp [hfunction scope]
    · exact hfunction
  | range start stop => exact h.unsupported rfl rfl
  | unknown => exact .words rfl

/-! ### Expressions -/

theorem array_closed {elements : List Expression} {elementType : Option TypeRef}
    (he : ∀ e ∈ elements, e.outline.Overlooked m) (ht : (typeOutline? elementType).Overlooked m) :
    (array c elements elementType).Closed m := by
  have helements := h.expressions he
  unfold array
  split
  · next t =>
    have htype := h.typeRef (t := t) ht
    intro scope opened
    simp [htype scope]
  · intro scope opened
    simp [helements scope]

theorem dictionary_closed {d : DictionaryLiteral} (ho : d.outline.Overlooked m) :
    (dictionary c d).Closed m := by
  obtain ⟨keys, values, keyType, valueType⟩ := d
  simp only [DictionaryLiteral.outline, Outline.overlooked_beside] at ho
  unfold dictionary
  split
  · intro scope opened
    simp
  · have hbrackets : ∀ entries : Doc, entries.Closed m →
        (text "[" ++ entries ++ text "]").Closed m := by
      intro entries hentries scope opened
      simp [hentries scope]
    exact hbrackets _ (Brace.entries_closed h ho.2.2 fun k v hk hv =>
      .append (.append hk (.words rfl)) hv)

theorem defaultOf_closed {t : TypeRef} (ho : t.outline.Overlooked m) :
    (defaultOf c t).Closed m := by
  rw [TypeRef.outline_eq, Outline.overlooked_node, Outline.overlooked_beside,
    Outline.overlooked_carried, overlooked_expression?] at ho
  unfold defaultOf
  split
  · next value hvalue => exact h.expression (ho.2.2 value hvalue)
  · have hdetail : Plain "type has no default value" := .of_chars rfl
    exact h.unsupported_detail rfl rfl ⟨hdetail, m.overlooks_of_chars rfl⟩

theorem expressionRule_closed {lowercaseCases : Bool} {e : Expression}
    (ho : e.outline.Overlooked m) :
    ((Language.swift lowercaseCases).expressionRule c e).Closed m := by
  obtain ⟨id, form⟩ := e
  rw [Expression.outline_eq, Outline.overlooked_node] at ho
  obtain ⟨ht, ho⟩ := ho
  cases form with
  | nil | selfReference | inherited => exact .words rfl
  | boolean value => exact Brace.booleanLiteral_closed value
  | integer value base =>
    simp only [Language.expressionRule]
    split
    · exact Brace.integerLiteral_closed overlooks_baseMark value base
    · exact fun _ _ => rfl
  | float value => exact Brace.floatLiteral_closed value
  | string s => exact Brace.stringLiteral_closed _ (ht s List.mem_cons_self)
  | character value => exact Brace.characterLiteral_closed rfl _ (ht _ List.mem_cons_self)
  | array elements elementType =>
    simp only [ExpressionForm.outline, Outline.overlooked_beside, overlooked_expressions] at ho
    exact array_closed h ho.2 ho.1
  | dictionary literal =>
    simp only [Language.expressionRule]
    split
    · exact dictionary_closed h ho
    · exact fun _ _ => rfl
  | tuple members =>
    have hmembers := h.expressions (overlooked_expressions.1 ho)
    intro scope opened
    simp [Language.expressionRule, Language.swift, expressions, hmembers scope]
  | result => exact h.unsupported rfl rfl
  | identifier name | localVariable name => exact h.identifier (ht name List.mem_cons_self)
  | field access => exact Brace.field_closed h ho (ht _ List.mem_cons_self)
  | property access =>
    obtain ⟨hname, harguments⟩ := List.forall_mem_cons.1 ht
    exact Brace.property_closed h ho hname harguments
  | call x =>
    obtain ⟨hname, harguments⟩ := List.forall_mem_cons.1 ht
    exact Brace.call_closed h ho hname harguments
  | newInstance type arguments =>
    simp only [ExpressionForm.outline, Outline.overlooked_beside] at ho
    have htype := presentType_closed h ho.1
    have harguments := Brace.arguments_closed h ho.2 ht
    intro scope opened
    simp [Language.expressionRule, Language.swift, expressions, htype scope, harguments scope]
  | element array indices =>
    simp only [ExpressionForm.outline, Outline.overlooked_beside, overlooked_expressions] at ho
    exact Brace.element_closed h ho.1 ho.2
  | enumValue type value =>
    have hname := h.identifier (overlooks_caseName (ht value List.mem_cons_self) lowercaseCases)
    exact .append (.append (presentType_closed h ho) (.words rfl)) hname
  | typeReference type => exact h.typeRef ho
  | typeOf type => exact .append (h.typeRef ho) (.words rfl)
  | sizeOf type =>
    have htype := h.typeRef (t := type) ho
    intro scope opened
    simp [Language.expressionRule, Language.swift, expressions, htype scope]
  | defaultOf type => exact defaultOf_closed h ho
  | typeCheck value type =>
    simp only [ExpressionForm.outline, Outline.overlooked_beside] at ho
    have hvalue := h.expression ho.1
    have htype := presentType_closed h ho.2
    exact .append (.append hvalue (.words rfl)) htype
  | typeCast cast =>
    obtain ⟨value, type, throws⟩ := cast
    simp only [ExpressionForm.outline, TypeCast.outline, Outline.overlooked_beside] at ho
    have hvalue := h.expression ho.1
    have htype := presentType_closed h ho.2
    refine .append (.append hvalue (.text ?_)) htype
    cases throws with
    | false => exact m.overlooks_of_chars rfl
    | true => exact m.overlooks_of_chars rfl
  | binary lhs operator rhs =>
    simp only [ExpressionForm.outline, Outline.overlooked_beside] at ho
    exact Brace.binary_closed h overlooks_binarySymbol ho.1 ho.2 operator
  | unary operator value => exact Brace.unary_closed h ho operator
  | conditional condition ifTrue ifFalse =>
    simp only [ExpressionForm.outline, Outline.overlooked_beside] at ho
    exact Brace.conditional_closed h ho.1 ho.2.1 ho.2.2
  | parentheses inner | await inner | addressOf inner | dereference inner =>
    have hinner := h.expression (e := inner) ho
    intro scope opened
    simp [Language.expressionRule, Language.swift, expressions, hinner scope]
  | range start stop inclusive =>
    simp only [ExpressionForm.outline, Outline.overlooked_beside] at ho
    have hstart := h.expression ho.1
    have hstop := h.expression ho.2
    refine .append (.append hstart (.text ?_)) hstop
    cases inclusive with
    | false => exact m.overlooks_of_chars rfl
    | true => exact m.overlooks_of_chars rfl
  | anonymousMethod method =>
    obtain ⟨parameters, returnType, ss⟩ := method
    simp only [ExpressionForm.outline, AnonymousMethod.outline, Outline.overlooked_beside,
      overlooked_statements] at ho
    have hparameters := Brace.parameterList_closed h ho.1
    have hreturn := returnClause_closed h ho.2.1
    have hstatements := h.statements ho.2.2
    intro scope opened
    simp [Language.expressionRule, Language.swift, expressions, hparameters scope, hreturn scope,
      hstatements scope]
  | raw s => exact .text (ht s List.mem_cons_self)

/-! ### Statements -/

theorem openStatements_closed {ss : List Statement} (ho : ∀ s ∈ ss, s.outline.Overlooked m) :
    (openStatements c ss).Closed m :=
  braces_closed (h.statements ho)

theorem openBody_closed {s : Statement} (ho : s.outline.Overlooked m) :
    (openBody c s).Closed m :=
  braces_closed (h.body ho)

omit h in
theorem overlooks_bindingWord (constant : Bool) : m.Overlooks (bindingWord constant) := by
  cases constant with
  | false => exact m.overlooks_of_chars rfl
  | true => exact m.overlooks_of_chars rfl

theorem typeAndValue_closed {t : Option TypeRef} {value : Option Expression}
    (ht : (typeOutline? t).Overlooked m) (hv : (expressionOutline? value).Overlooked m) :
    (typeAndValue c t value).Closed m :=
  .append (h.typeAfter (m.overlooks_of_chars rfl) ht)
    (h.valueAfter (m.overlooks_of_chars rfl) hv)

theorem declare_closed {d : VariableDeclaration} (ho : d.outline.Overlooked m)
    (ht : m.Overlooks d.name) : (declare c d).Closed m := by
  obtain ⟨name, type, value, constant, readOnly⟩ := d
  simp only [VariableDeclaration.outline, Outline.overlooked_beside] at ho
  have hword : m.Overlooks (bindingWord (constant || readOnly)) := overlooks_bindingWord _
  refine .append (.append (.append (.text hword) (.words rfl)) ?_) ?_
  · exact h.identifier ht
  · exact typeAndValue_closed h ho.1 ho.2

theorem conditionalStatement_closed {condition : Expression} {thenBranch : Statement}
    {elseBranch : Option Statement} (hc : condition.outline.Overlooked m)
    (ht : thenBranch.outline.Overlooked m) (he : (statementOutline? elseBranch).Overlooked m) :
    (conditionalStatement c condition thenBranch elseBranch).Closed m := by
  have hcondition := h.expression hc
  have hthen := openBody_closed h ht
  refine .append (.append (.append (.words rfl) hcondition) hthen) ?_
  refine .whenSome fun other hother => ?_
  have hother := overlooked_statement?.1 he other hother
  split
  · exact .append (.words rfl) (h.statement hother)
  · exact .append (.words rfl) (openBody_closed h hother)

theorem backwardStep_closed {step : Option Expression}
    (ho : (expressionOutline? step).Overlooked m) : (backwardStep c step).Closed m := by
  cases step with
  | none => exact .words rfl
  | some e =>
    have hstep := h.expression (e := e) ho
    unfold backwardStep
    simp only
    split
    · exact .append (.words rfl) hstep
    · intro scope opened
      simp [hstep scope]

theorem countedValues_closed {l : CountingLoop} (hstart : l.start.outline.Overlooked m)
    (hstop : l.stop.outline.Overlooked m) (hstep : (expressionOutline? l.step).Overlooked m) :
    (countedValues c l).Closed m := by
  have hstart := h.expression hstart
  have hstop := h.expression hstop
  have hstride : ∀ step : Doc, step.Closed m → (text "stride(from: " ++ c.expression l.start ++
      text ", through: " ++ c.expression l.stop ++ text ", by: " ++ step ++ text ")").Closed m := by
    intro step hstep scope opened
    simp [hstart scope, hstop scope, hstep scope]
  unfold countedValues
  simp only
  split
  · exact .append (.append hstart (.words rfl)) hstop
  · next step hsome =>
    rw [hsome] at hstep
    exact hstride _ (h.expression hstep)
  · exact hstride _ (backwardStep_closed h hstep)

theorem forTo_closed {l : CountingLoop} (ho : l.outline.Overlooked m)
    (ht : m.Overlooks l.counter) : (forTo c l).Closed m := by
  obtain ⟨counter, type, start, stop, step, direction, body⟩ := l
  simp only [CountingLoop.outline, Outline.overlooked_beside] at ho
  obtain ⟨-, hstart, hstop, hstep, hbody⟩ := ho
  have hcounter := h.identifier ht
  have hvalues := countedValues_closed h (l := ⟨counter, type, start, stop, step, direction, body⟩)
    hstart hstop hstep
  have hbody := openBody_closed h hbody
  intro scope opened
  simp [forTo, hcounter scope, hvalues scope, hbody scope]

theorem forEach_closed {l : CollectionLoop} (ho : l.outline.Overlooked m)
    (ht : m.Overlooks l.element) : (forEach c l).Closed m := by
  obtain ⟨element, type, collection, body⟩ := l
  simp only [CollectionLoop.outline, Outline.overlooked_beside] at ho
  have helement := h.identifier ht
  have htype : (whenSome type fun t => text ": " ++ c.typeRef t).Closed m :=
    h.typeAfter (m.overlooks_of_chars rfl) ho.1
  have hcollection := h.expression ho.2.1
  have hbody := openBody_closed h ho.2.2
  intro scope opened
  simp [forEach, helement scope, htype scope, hcollection scope, hbody scope]

theorem caseBody_closed {ss : List Statement} (ho : ∀ s ∈ ss, s.outline.Overlooked m) :
    (caseBody c ss).Closed m := by
  have hbody := h.statements ho
  refine Closed.append hbody (.when ?_ _)
  exact .wordsLine rfl

theorem switch_closed {value : Expression} {cases : List SwitchCase}
    {default : Option (List Statement)} (hv : value.outline.Overlooked m)
    (hc : ∀ s ∈ cases, s.outline.Overlooked m)
    (hd : ∀ ss ∈ default, ∀ s ∈ ss, s.outline.Overlooked m) :
    (switch c value cases default).Closed m := by
  have hvalue := h.expression hv
  have hcases : (concat (cases.map fun s =>
      text "case " ++ c.expressions s.labels ++ line ":" ++ caseBody c s.statements)).Closed m := by
    refine .concat ?_
    rintro ⟨labels, ss⟩ hs
    have ho := hc _ hs
    simp only [SwitchCase.outline, Outline.overlooked_beside, overlooked_expressions,
      overlooked_statements] at ho
    refine .append (.append (.append ?_ (h.expressions ho.1)) ?_) (caseBody_closed h ho.2)
    · exact .words rfl
    · exact .wordsLine rfl
  have hdefault : (whenSome default fun ss => line "default:" ++ caseBody c ss).Closed m :=
    .whenSome fun ss hss => .append (.wordsLine rfl) (caseBody_closed h (hd ss hss))
  intro scope opened
  simp [switch, hvalue scope, hcases scope, hdefault scope]

theorem pattern_closed {x : CatchBlock} (ht : (typeOutline? x.type).Overlooked m)
    (hn : ∀ name ∈ x.name, m.Overlooks name) : (pattern c x).Closed m := by
  obtain ⟨name, type, ss⟩ := x
  have htype := fun t (hmem : t ∈ type) => presentType_closed h (overlooked_type?.1 ht t hmem)
  have hname := fun s (hmem : s ∈ name) => h.identifier (hn s hmem)
  cases name with
  | none =>
    cases type with
    | none => exact fun _ _ => rfl
    | some t => exact .append (.words rfl) (htype t rfl)
  | some s =>
    have hlet : (text " let " ++ c.identifier s).Closed m :=
      .append (.words rfl) (hname s rfl)
    cases type with
    | none => exact hlet
    | some t => exact (hlet.append (.words rfl)).append (htype t rfl)

theorem tryCatch_closed {t : TryStatement} (ho : t.outline.Overlooked m)
    (ht : ∀ s ∈ t.catches.filterMap (·.name), m.Overlooks s) : (tryCatch c t).Closed m := by
  obtain ⟨ss, catches, cleanup⟩ := t
  simp only [TryStatement.outline, Outline.overlooked_beside, overlooked_statements,
    overlooked_catches, overlooked_statements?] at ho
  have hcleanup : (whenSome cleanup fun ss =>
      text "defer" ++ openStatements c ss ++ newline).Closed m := by
    refine .whenSome fun ss hss => .append (.append ?_ ?_) fun _ _ => rfl
    · exact .words rfl
    · exact openStatements_closed h (ho.2.2 ss hss)
  have hstatements := h.statements ho.1
  have hcatches : (concat (catches.map fun x =>
      text " catch" ++ pattern c x ++ openStatements c x.statements)).Closed m := by
    refine .concat fun x hx => ?_
    have hx' := ho.2.1 x hx
    have hname : ∀ name ∈ x.name, m.Overlooks name := fun name hname =>
      ht name (List.mem_filterMap.2 ⟨x, hx, hname⟩)
    obtain ⟨name, type, ss⟩ := x
    simp only [CatchBlock.outline, Outline.overlooked_beside, overlooked_statements] at hx'
    refine .append (.append (.words rfl) ?_) ?_
    · exact pattern_closed h hx'.1 hname
    · exact openStatements_closed h hx'.2
  intro scope opened
  simp [tryCatch, hcleanup scope, hstatements scope, hcatches scope]

theorem statementRule_closed {lowercaseCases : Bool} {s : Statement}
    (ho : s.outline.Overlooked m) :
    ((Language.swift lowercaseCases).statementRule c s).Closed m := by
  obtain ⟨id, form⟩ := s
  rw [Statement.outline_eq, Outline.overlooked_node] at ho
  obtain ⟨ht, ho⟩ := ho
  cases form with
  | block ss =>
    exact .append (.words rfl)
      (openStatements_closed h (overlooked_statements.1 ho))
  | expression value => exact h.expression ho
  | declare declaration => exact declare_closed h ho (ht _ List.mem_cons_self)
  | assignment target value =>
    simp only [StatementForm.outline, Outline.overlooked_beside] at ho
    refine .append (.append (h.expression ho.1) ?_) (h.expression ho.2)
    exact .words rfl
  | conditional condition thenBranch elseBranch =>
    simp only [StatementForm.outline, Outline.overlooked_beside] at ho
    exact conditionalStatement_closed h ho.1 ho.2.1 ho.2.2
  | whileLoop condition body =>
    simp only [StatementForm.outline, Outline.overlooked_beside] at ho
    refine .append (.append ?_ (h.expression ho.1)) (openBody_closed h ho.2)
    exact .words rfl
  | doWhile condition body =>
    simp only [StatementForm.outline, Outline.overlooked_beside] at ho
    refine .append (.append (.append ?_ (openBody_closed h ho.1)) ?_) (h.expression ho.2)
    · exact .words rfl
    · exact .words rfl
  | infiniteLoop body =>
    have hcondition := h.expression (overlooked_endless (m := m))
    have hbody := openBody_closed h (s := body) ho
    exact .append (.append (.words rfl) hcondition) hbody
  | forTo loop => exact forTo_closed h ho (ht _ List.mem_cons_self)
  | forEach loop => exact forEach_closed h ho (ht _ List.mem_cons_self)
  | switch value cases default =>
    simp only [StatementForm.outline, Outline.overlooked_beside, overlooked_cases,
      overlooked_statements?] at ho
    exact switch_closed h ho.1 ho.2.1 ho.2.2
  | tryCatch attempt => exact tryCatch_closed h ho ht
  | throwing value =>
    cases value with
    | none =>
      have hdetail : Plain "rethrow without a value" := .of_chars rfl
      exact h.unsupported_detail rfl rfl ⟨hdetail, m.overlooks_of_chars rfl⟩
    | some e => exact .append (.words rfl) (h.expression ho)
  | returning value =>
    exact .append (.words rfl) (h.valueAfter (m.overlooks_of_chars rfl) ho)
  | breakLoop | continueLoop => exact .words rfl
  | locking value body => exact h.unsupported rfl rfl
  | «using» resource => exact h.unsupported rfl rfl
  | comment x => exact h.comment ht
  | empty => exact fun _ _ => rfl
  | raw s => exact .text (ht s List.mem_cons_self)

/-! ### Parameters -/

theorem parameter_closed {p : Parameter} (ho : p.outline.Overlooked m) :
    (parameter c p).Closed m := by
  rw [Parameter.outline_eq, Outline.overlooked_node, Outline.overlooked_beside] at ho
  obtain ⟨ht, htype, hdefault⟩ := ho
  have hlabel : (whenSome p.externalName fun label => c.identifier label ++ text " ").Closed m := by
    refine .whenSome fun label hmem => .append (h.identifier (ht label ?_)) ?_
    · exact List.mem_cons_of_mem _ (Option.mem_toList.2 hmem)
    · exact .words rfl
  have hname := h.identifier (ht p.name List.mem_cons_self)
  refine .append (.append (.append (.append (.append (.append hlabel hname) ?_) ?_) ?_) ?_) ?_
  · exact .words rfl
  · exact .when (.words rfl) _
  · exact h.typeRef htype
  · exact .when (.words rfl) _
  · exact h.valueAfter (m.overlooks_of_chars rfl) hdefault

end

end Swift

end SourcePrinter
