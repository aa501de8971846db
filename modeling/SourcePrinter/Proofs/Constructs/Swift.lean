import SourcePrinter.Proofs.Constructs

/-! The declarations of Swift: a member that is no type is closed, and a type definition bears its
members. -/

namespace SourcePrinter

namespace Swift

open Doc

attribute [local simp] isInk isOpening isClosing Reading.isIdle

variable {m : Reading} {c : Context}

/-! ### Modifiers -/

theorem visibility_closed (v : Visibility) : (visibility v).Closed m := by
  refine .whenSome fun w hw => .append (.text ?_) (.words rfl)
  cases v <;> cases hw <;> exact m.overlooks_of_chars rfl

theorem virtualityWords_closed (v : Virtuality) : (virtualityWords v).Closed m := by
  cases v with
  | override | final => exact .words rfl
  | none | virtual | abstract => exact fun _ _ => rfl

theorem memberModifiers_closed (x : Member) : (memberModifiers x).Closed m := by
  intro scope
  rw [memberModifiers]
  refine Closed.append (.append ?_ ?_) ?_ scope
  · exact .when (visibility_closed _) _
  · exact .when (.words rfl) _
  · exact .when (virtualityWords_closed _) _

/-! ### Functions -/

variable (h : c.Closes m)

include h

theorem presentTypes_closed {separator : String} (hs : m.Overlooks separator) {ts : List TypeRef}
    (ho : ∀ t ∈ ts, t.outline.Overlooked m) :
    (separated separator (ts.map (presentType c))).Closed m :=
  .separated hs fun t ht => presentType_closed h (ho t ht)

theorem genericParameters_closed {ps : List GenericParameter}
    (ho : ∀ p ∈ ps, p.outline.Overlooked m) (ht : ∀ p ∈ ps, m.Overlooks p.name) :
    (genericParameters c ps).Closed m := by
  have hlist : (commaList (ps.map (genericParameter c))).Closed m := by
    refine .commaList fun p hp => .append (h.identifier (ht p hp)) (.when (.append ?_ ?_) _)
    · exact .words rfl
    · exact presentTypes_closed h (m.overlooks_of_chars rfl) (overlooked_types.1 (ho p hp))
  refine .when (.append (.append ?_ hlist) ?_) _
  · exact .words rfl
  · exact .words rfl

theorem functionBody_closed {b : MethodBody} (ho : ∀ s ∈ b.statements, s.outline.Overlooked m) :
    (functionBody c b).Closed m := by
  intro scope opened
  rw [functionBody, read_perScope]
  split
  · rfl
  · exact Closed.append (b := newline) (openStatements_closed h ho) (fun _ _ => rfl) scope opened

theorem constructor_closed (x : Member) {b : MethodBody} (ho : b.outline.Overlooked m) :
    (constructor c x b).Closed m := by
  simp only [MethodBody.outline, Outline.overlooked_beside, overlooked_statements] at ho
  obtain ⟨-, hparameters, -, hstatements⟩ := ho
  refine .append (.append (.append (.append (.append ?_ ?_) ?_) ?_) ?_)
    (functionBody_closed h hstatements)
  · intro scope
    exact Closed.when (visibility_closed _) _ scope
  · exact .when (.words rfl) _
  · exact .words rfl
  · exact Brace.parameterList_closed h hparameters
  · exact .when (.words rfl) _

theorem destructor_closed {b : MethodBody} (ho : b.outline.Overlooked m) :
    (destructor c b).Closed m := by
  simp only [MethodBody.outline, Outline.overlooked_beside, overlooked_statements] at ho
  exact .append (.words rfl) (functionBody_closed h ho.2.2.2)

theorem method_closed {x : Member} (hx : m.Overlooks x.name) {b : MethodBody}
    (ho : b.outline.Overlooked m) (ht : ∀ p ∈ b.genericParameters, m.Overlooks p.name) :
    (method c x b).Closed m := by
  simp only [MethodBody.outline, Outline.overlooked_beside, Outline.overlooked_inOrder,
    overlooked_statements] at ho
  obtain ⟨hreturn, hparameters, hgenerics, hstatements⟩ := ho
  refine .append (.append (.append (.append (.append (.append (.append (.append ?_ ?_) ?_) ?_) ?_)
    ?_) ?_) ?_) (functionBody_closed h hstatements)
  · exact memberModifiers_closed x
  · exact .words rfl
  · exact h.identifier hx
  · exact genericParameters_closed h hgenerics ht
  · exact Brace.parameterList_closed h hparameters
  · exact .when (.words rfl) _
  · exact .when (.words rfl) _
  · exact returnClause_closed h hreturn

theorem customOperator_closed (operator : OverloadableOperator) {b : MethodBody}
    (ho : b.outline.Overlooked m) : (customOperator c operator b).Closed m := by
  simp only [MethodBody.outline, Outline.overlooked_beside, overlooked_statements] at ho
  obtain ⟨hreturn, hparameters, -, hstatements⟩ := ho
  unfold customOperator
  split
  · have hplain : Plain operator.name ∧ m.Overlooks operator.name := by
      cases operator <;> exact ⟨.of_chars (by decide), m.overlooks_of_chars rfl⟩
    exact h.unsupported_detail rfl rfl hplain
  · next symbol hsymbol =>
    refine .append (.append (.append (.append (.append ?_ (.text ?_)) ?_) ?_) ?_)
      (functionBody_closed h hstatements)
    · exact .words rfl
    · cases operator <;> cases hsymbol <;> exact m.overlooks_of_chars rfl
    · exact .words rfl
    · exact Brace.parameterList_closed h hparameters
    · exact returnClause_closed h hreturn

/-! ### Fields and properties -/

theorem field_closed {x : Member} (hx : m.Overlooks x.name) {f : FieldMember}
    (ho : f.outline.Overlooked m) : (field c x f).Closed m := by
  obtain ⟨type, initializer, constant, readOnly⟩ := f
  simp only [FieldMember.outline, Outline.overlooked_beside] at ho
  unfold field
  split
  · exact h.unsupported_detail rfl rfl ⟨.of_chars (by decide), m.overlooks_of_chars rfl⟩
  · refine .append (.append (.append (.append (.append ?_ ?_) ?_) ?_) ?_) fun _ _ => rfl
    · exact memberModifiers_closed x
    · exact .text (overlooks_bindingWord _)
    · exact .words rfl
    · exact h.identifier hx
    · exact typeAndValue_closed h ho.1 ho.2

theorem accessor_closed {keyword : String} (hk : m.Overlooks keyword) {ss : List Statement}
    (ho : ∀ s ∈ ss, s.outline.Overlooked m) : (accessor c keyword ss).Closed m :=
  .append (.append (.text hk) (openStatements_closed h ho)) fun _ _ => rfl

theorem propertyHead_closed {x : Member} (hx : m.Overlooks x.name) {p : PropertyMember}
    (ht : p.type.outline.Overlooked m)
    (hp : (Outline.inOrder (parameterOutlines p.parameters)).Overlooked m) :
    (propertyHead c x p).Closed m := by
  refine .append (.append (memberModifiers_closed x) ?_) (h.typeRef ht)
  split
  · refine .append (.append ?_ (h.identifier hx)) ?_
    · exact .words rfl
    · exact .words rfl
  · refine .append (.append ?_ (Brace.parameterList_closed h hp)) ?_
    · exact .words rfl
    · exact .words rfl

theorem property_closed {x : Member} (hx : m.Overlooks x.name) {p : PropertyMember}
    (ho : p.outline.Overlooked m) : (property c x p).Closed m := by
  simp only [PropertyMember.outline, Outline.overlooked_beside, overlooked_statements?] at ho
  obtain ⟨htype, hparameters, hget, hset, hvalue⟩ := ho
  have hget : (whenSome p.getter (accessor c "get")).Closed m :=
    .whenSome fun ss hss => accessor_closed h (m.overlooks_of_chars rfl) (hget ss hss)
  have hset : (whenSome p.setter (accessor c "set")).Closed m :=
    .whenSome fun ss hss => accessor_closed h (m.overlooks_of_chars rfl) (hset ss hss)
  have hvalue : (whenSome p.initializer fun e => text " = " ++ c.expression e).Closed m :=
    h.valueAfter (m.overlooks_of_chars rfl) hvalue
  refine .append (propertyHead_closed h hx htype hparameters) ?_
  intro scope opened
  rw [read_perScope]
  split
  · split
    · simp
    · simp
  · split
    · exact Closed.append (b := newline) hvalue (fun _ _ => rfl) scope opened
    · have hbraces := braces_closed (hget.append hset)
      exact Closed.append (b := newline) hbraces (fun _ _ => rfl) scope opened

/-- A member that is no type reads as nothing where it is written. -/
theorem memberRule_closed {lowercaseCases : Bool} {x : Member} (hx : m.Overlooks x.name)
    (ho : x.form.outline.Overlooked m) (ht : ∀ s ∈ x.form.texts, m.Overlooks s)
    (hn : ∀ t, x.form ≠ .nestedType t) :
    ((Language.swift lowercaseCases).memberRule c x).Closed m := by
  obtain ⟨id, name, info, virtuality, isStatic, form⟩ := x
  cases form with
  | constructor b => exact constructor_closed h _ ho
  | destructor b | finalizer b => exact destructor_closed h ho
  | method b => exact method_closed h hx ho fun p hp => ht _ (List.mem_map_of_mem hp)
  | field f => exact field_closed h hx ho
  | property p => exact property_closed h hx ho
  | event e => exact h.unsupported rfl rfl
  | customOperator operator b => exact customOperator_closed h operator ho
  | nestedType t => exact absurd rfl (hn t)

/-! ### Types -/

theorem enumCase_closed {lowercaseCases : Bool} {v : EnumCase} (ho : v.outline.Overlooked m)
    (ht : ∀ s ∈ v.name :: Comment.texts v.comment, m.Overlooks s) :
    (enumCase c lowercaseCases v).Closed m := by
  have hcomment := h.documentation? fun s hs => ht s (List.mem_cons_of_mem _ hs)
  have hname := overlooks_caseName (ht v.name List.mem_cons_self) lowercaseCases
  refine .append (.append (.append (.append hcomment ?_) (h.identifier hname)) ?_) fun _ _ => rfl
  · exact .words rfl
  · exact h.valueAfter (m.overlooks_of_chars rfl) ho

theorem baseList_closed {bases : List TypeRef} (ho : ∀ t ∈ bases, t.outline.Overlooked m) :
    (baseList c bases).Closed m := by
  refine .when (.append (.words rfl) ?_) _
  exact presentTypes_closed h (m.overlooks_of_chars rfl) ho

variable {lowercaseCases : Bool} {setting : Setting} {scope : Option TypeScope}

omit h in
/-- Members in braces after a head that is closed. -/
theorem headed_bears {head : Doc} (hhead : head.Closed m) {xs : List Member}
    (hm : ∀ x ∈ xs, ∀ opened, Bears (.swift lowercaseCases) setting m (c.member x) scope opened
      opened (x.constructs (.swift lowercaseCases))) (opened : List Char) :
    Bears (.swift lowercaseCases) setting m (head ++ braces (memberList c xs) ++ newline) scope
      opened opened (.join (memberConstructs (.swift lowercaseCases) xs)) := by
  refine .before (.pass hhead (.braces (.members (memberList_lists c) ?_ ?_))) rfl
  · exact fun _ _ _ _ => rfl
  · exact fun x hx => hm x hx _

theorem classLike_bears {words : Doc} (hw : words.Closed m) {t : TypeDefinition}
    (hname : m.Overlooks t.name) {body : ClassBody} (ho : body.outline.Overlooked m)
    (ht : ∀ s ∈ body.genericParameters.map (·.name), m.Overlooks s)
    (hm : ∀ x ∈ body.members, ∀ opened, Bears (.swift lowercaseCases) setting m (c.member x) scope
      opened opened (x.constructs (.swift lowercaseCases))) (opened : List Char) :
    Bears (.swift lowercaseCases) setting m (classLike c words t body) scope opened opened
      (body.constructs (.swift lowercaseCases)) := by
  obtain ⟨generics, ancestors, interfaces, xs, isStatic, isSealed, isAbstract, isPartial⟩ := body
  simp only [ClassBody.outline, Outline.overlooked_beside, Outline.overlooked_inOrder,
    overlooked_types] at ho
  obtain ⟨hancestors, hinterfaces, hgenerics, -⟩ := ho
  have hnames : ∀ p ∈ generics, m.Overlooks p.name := fun p hp => ht _ (List.mem_map_of_mem hp)
  have hbases : ∀ t ∈ ancestors ++ interfaces, t.outline.Overlooked m := fun t ht =>
    (List.mem_append.1 ht).elim (hancestors t) (hinterfaces t)
  refine headed_bears (.append (.append (.append (.append (.append ?_ hw) ?_) ?_) ?_) ?_) hm opened
  · exact visibility_closed _
  · exact .words rfl
  · exact h.identifier hname
  · exact genericParameters_closed h hgenerics hnames
  · exact baseList_closed h hbases

theorem extensionType_bears {t : TypeDefinition} (hname : m.Overlooks t.name) {body : ClassBody}
    (ho : body.outline.Overlooked m)
    (hm : ∀ x ∈ body.members, ∀ opened, Bears (.swift lowercaseCases) setting m (c.member x) scope
      opened opened (x.constructs (.swift lowercaseCases))) (opened : List Char) :
    Bears (.swift lowercaseCases) setting m (extensionType c t body) scope opened opened
      (body.constructs (.swift lowercaseCases)) := by
  obtain ⟨generics, ancestors, interfaces, xs, isStatic, isSealed, isAbstract, isPartial⟩ := body
  simp only [ClassBody.outline, Outline.overlooked_beside, overlooked_types] at ho
  obtain ⟨hancestors, hinterfaces, -, -⟩ := ho
  refine headed_bears (.append (.append (.append ?_ ?_) ?_) ?_) hm opened
  · exact visibility_closed _
  · exact .words rfl
  · cases ancestors with
    | nil => exact h.identifier hname
    | cons target more => exact presentType_closed h (hancestors target List.mem_cons_self)
  · exact baseList_closed h hinterfaces

/-- A type definition bears its members. -/
theorem definitionRule_bears {t : TypeDefinition} (hname : m.Overlooks t.name)
    (ho : t.form.outline.Overlooked m) (ht : ∀ s ∈ t.form.texts, m.Overlooks s)
    (hm : ∀ x ∈ t.members, ∀ opened, Bears (.swift lowercaseCases) setting m (c.member x) scope
      opened opened (x.constructs (.swift lowercaseCases))) (opened : List Char) :
    Bears (.swift lowercaseCases) setting m ((Language.swift lowercaseCases).definitionRule c t)
      scope opened opened (t.form.constructs (.swift lowercaseCases)) := by
  obtain ⟨id, name, info, form⟩ := t
  have hvisibility : (visibility info.visibility).Closed m := visibility_closed _
  have hidentifier := h.identifier hname
  cases form with
  | aliasType actual strict =>
    have hactual := h.typeRef (t := actual) ho
    refine .closed (.append (.append (.append (.append (.append hvisibility ?_) hidentifier) ?_)
      hactual) fun _ _ => rfl)
    · exact .words rfl
    · exact .words rfl
  | enumeration base cases =>
    simp only [TypeDefinitionForm.outline, Outline.overlooked_beside,
      Outline.overlooked_inOrder, overlooked_type?] at ho
    have hbase : (baseList c base.toList).Closed m :=
      baseList_closed h fun t ht => ho.1 t (Option.mem_toList.1 ht)
    have hcases : (concat (cases.map (enumCase c lowercaseCases))).Closed m :=
      .concat fun v hv => enumCase_closed h (ho.2 v hv) fun s hs =>
        ht s (List.mem_flatMap.2 ⟨v, hv, hs⟩)
    refine .closed (.append (.append (.append (.append (.append (.append hvisibility ?_) ?_)
      hidentifier) hbase) (braces_closed hcases)) fun _ _ => rfl)
    · exact .words rfl
    · exact .words rfl
  | classType body =>
    have hsealed : (Doc.when body.isSealed (text "final ")).Closed m :=
      .when (.words rfl) _
    exact classLike_bears h (hsealed.append (.words rfl)) hname ho ht hm opened
  | structType body | interfaceType body =>
    exact classLike_bears h (.words rfl) hname ho ht hm opened
  | extensionType body => exact extensionType_bears h hname ho hm opened
  | blockType parameters returnType =>
    simp only [TypeDefinitionForm.outline, Outline.overlooked_beside, overlooked_parameters] at ho
    have htypes : (commaList (parameters.map fun p => c.typeRef p.type)).Closed m := by
      refine .commaList fun p hp => h.typeRef ?_
      have hparameter := ho.2 p hp
      rw [Parameter.outline_eq, Outline.overlooked_node, Outline.overlooked_beside] at hparameter
      exact hparameter.2.1
    have hresult := resultType_closed h ho.1
    refine .closed fun scope opened => ?_
    simp [Language.definitionRule, Language.swift, definitions, hvisibility scope,
      hidentifier scope, htypes scope, hresult scope]

/-! ### Units -/

theorem attributeLine_closed {a : Attribute} (ho : a.outline.Overlooked m)
    (ht : ∀ s ∈ argumentTexts a.arguments, m.Overlooks s) :
    (units.attributeLine c a).Closed m := by
  simp only [Attribute.outline, Outline.overlooked_beside] at ho
  have htype := presentType_closed h ho.2.1
  have hlist := Brace.argumentClause_closed h ho.2.2 ht
  refine .append (.append (.append ?_ htype) hlist) fun _ _ => rfl
  exact .words rfl

theorem importing_closed {i : Import} (hi : m.Overlooks i.name) :
    (hooks.importing c i).Closed m := by
  refine .append (.append ?_ (h.qualified hi)) fun _ _ => rfl
  exact .words rfl

end Swift

end SourcePrinter
