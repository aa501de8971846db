import SourcePrinter.Proofs.Constructs

/-! The declarations of C#: a member that is no type is closed, and a type definition bears its
members. -/

namespace SourcePrinter

namespace CSharp

open Doc

attribute [local simp] isInk isOpening isClosing Reading.isIdle

variable {m : Reading} {c : Context}

/-! ### Modifiers -/

theorem wordSpace_closed {word : Option String} (hw : ∀ w ∈ word, m.Overlooks w) :
    (wordSpace word).Closed m :=
  .whenSome fun w hmem => .append (.text (hw w hmem)) (.words rfl)

theorem visibility_closed (v : Visibility) : (wordSpace (visibilityWord v)).Closed m := by
  refine wordSpace_closed fun w hw => ?_
  cases v <;> cases hw <;> exact m.overlooks_of_chars rfl

theorem memberModifiers_closed (x : Member) : (memberModifiers x).Closed m := by
  have hvirtuality : (wordSpace (virtualityWord x.virtuality)).Closed m := by
    refine wordSpace_closed fun w hw => ?_
    cases hv : x.virtuality <;> rw [hv] at hw <;> cases hw <;> exact m.overlooks_of_chars rfl
  have hstatic : ∀ b, (Doc.when b (text "static ")).Closed m :=
    Closed.when (.words rfl)
  intro scope
  rw [memberModifiers]
  refine Closed.when (.append (.append (visibility_closed _) (hstatic _)) hvirtuality) _ scope

/-! ### Functions -/

variable (h : c.Closes m)

include h

theorem returnType_closed {t : Option TypeRef} (ht : (typeOutline? t).Overlooked m) :
    (returnType c t).Closed m := by
  cases t with
  | none => exact .words rfl
  | some t => exact h.typeRef ht

theorem genericConstraints_closed {ps : List GenericParameter}
    (ho : ∀ p ∈ ps, p.outline.Overlooked m) (ht : ∀ p ∈ ps, m.Overlooks p.name) :
    (genericConstraints c ps).Closed m := by
  refine .concat fun p hp => ?_
  have hmem := (List.mem_filter.1 hp).1
  refine .append (.append (.append ?_ (h.identifier (ht p hmem))) ?_) ?_
  · exact .words rfl
  · exact .words rfl
  · exact h.typeRefs (overlooked_types.1 (ho p hmem))

theorem methodBody_closed (x : Member) {b : MethodBody}
    (ho : ∀ s ∈ b.statements, s.outline.Overlooked m) : (methodBody c x b).Closed m := by
  intro scope opened
  have hblock := Brace.block_closed h ho
  rw [methodBody, read_perScope]
  split
  · simp
  · simp [hblock scope]

theorem ownerName_read {x : Member} (hx : m.Overlooks x.name) {scope : Option TypeScope}
    (hs : ∀ s ∈ scope, m.Overlooks s.name) (opened : List Char) :
    (ownerName c x).read m scope opened = some opened := by
  rw [ownerName, read_perScope]
  cases scope with
  | none => exact h.identifier hx none opened
  | some s => exact h.identifier (hs s rfl) (some s) opened

theorem method_closed {x : Member} (hx : m.Overlooks x.name) {b : MethodBody}
    (ho : b.outline.Overlooked m) (ht : ∀ p ∈ b.genericParameters, m.Overlooks p.name) :
    (method c x b).Closed m := by
  simp only [MethodBody.outline, Outline.overlooked_beside, Outline.overlooked_inOrder,
    overlooked_statements] at ho
  obtain ⟨hreturn, hparameters, hgenerics, hstatements⟩ := ho
  have hmodifiers := memberModifiers_closed (m := m) x
  have hexternal : (Doc.when b.external (text "extern ")).Closed m :=
    .when (.words rfl) _
  have hasync : (Doc.when b.isAsync (text "async ")).Closed m :=
    .when (.words rfl) _
  have hreturn := returnType_closed h hreturn
  have hname := h.identifier hx
  have hgeneric := Brace.genericNames_closed h ht
  have hparameters := Brace.parameterList_closed h hparameters
  have hconstraints := genericConstraints_closed h hgenerics ht
  have hbody := methodBody_closed h x hstatements
  intro scope opened
  simp [method, hmodifiers scope, hexternal scope, hasync scope, hreturn scope, hname scope,
    hgeneric scope, hparameters scope, hconstraints scope, hbody scope]

theorem customOperator_closed (x : Member) (operator : OverloadableOperator) {b : MethodBody}
    (ho : b.outline.Overlooked m) : (customOperator c x operator b).Closed m := by
  simp only [MethodBody.outline, Outline.overlooked_beside, overlooked_statements] at ho
  obtain ⟨hreturn, hparameters, -, hstatements⟩ := ho
  have hsymbol : (text (operatorSymbol operator)).Closed m := by
    refine .text ?_
    cases operator <;> exact m.overlooks_of_chars rfl
  have hword : (text " operator ").Closed m := .words rfl
  refine .append (.append (.append ?_ ?_) ?_) (methodBody_closed h x hstatements)
  · exact .words rfl
  · split
    · split
      · exact fun _ _ => rfl
      · next target htarget =>
        rw [htarget] at hreturn
        exact .append (.append hsymbol hword) (h.typeRef hreturn)
    · exact .append (.append (returnType_closed h hreturn) hword) hsymbol
  · exact Brace.parameterList_closed h hparameters

/-! ### Fields, properties and events -/

theorem field_closed {x : Member} (hx : m.Overlooks x.name) {f : FieldMember}
    (ho : f.outline.Overlooked m) : (field c x f).Closed m := by
  obtain ⟨type, initializer, constant, readOnly⟩ := f
  simp only [FieldMember.outline, Outline.overlooked_beside] at ho
  cases type with
  | none => exact h.unsupported rfl rfl
  | some t =>
    have hvalue : (whenSome initializer fun e => text " = " ++ c.expression e).Closed m :=
      h.valueAfter (m.overlooks_of_chars rfl) ho.2
    refine .append (.append (.append (.append (.append (.append ?_ ?_) ?_) ?_) ?_) hvalue) ?_
    · exact memberModifiers_closed x
    · split
      · exact .words rfl
      · exact .when (.words rfl) _
    · exact h.typeRef ho.1
    · exact .words rfl
    · exact h.identifier hx
    · exact .wordsLine rfl

theorem accessor_closed {keyword : String} (hk : m.Overlooks keyword) {ss : List Statement}
    (ho : ∀ s ∈ ss, s.outline.Overlooked m) : (accessor c keyword ss).Closed m :=
  .append (.line hk) (Brace.block_closed h ho)

omit h in
theorem accessorSignatures_closed (p : PropertyMember) : (accessorSignatures p).Closed m := by
  have hget : (Doc.when p.isReadable (text " get;")).Closed m :=
    .when (.words rfl) _
  have hset : (Doc.when p.isSettable (text " set;")).Closed m :=
    .when (.words rfl) _
  intro scope opened
  simp [accessorSignatures, hget scope, hset scope]

theorem property_closed {x : Member} (hx : m.Overlooks x.name) {p : PropertyMember}
    (ho : p.outline.Overlooked m) : (property c x p).Closed m := by
  simp only [PropertyMember.outline, Outline.overlooked_beside, overlooked_statements?] at ho
  obtain ⟨htype, hparameters, hget, hset, hvalue⟩ := ho
  refine .append (.append (.append (.append ?_ ?_) ?_) ?_) ?_
  · exact memberModifiers_closed x
  · exact h.typeRef htype
  · exact .words rfl
  · split
    · exact h.identifier hx
    · have hlist : (commaList (p.parameters.map c.parameter)).Closed m :=
        .commaList fun a ha => h.parameter (overlooked_parameters.1 hparameters a ha)
      intro scope opened
      simp [hlist scope]
  · split
    · refine .append (.append (accessorSignatures_closed p) (.when ?_ _)) fun _ _ => rfl
      refine .whenSome fun e he => ?_
      refine .append (.append ?_ (h.expression (overlooked_expression?.1 hvalue e he))) ?_
      · exact .words rfl
      · exact .words rfl
    · refine .append (fun _ _ => rfl) (Brace.braced_closed (.append (.whenSome ?_) (.whenSome ?_)))
      · exact fun ss hss => accessor_closed h (m.overlooks_of_chars rfl) (hget ss hss)
      · exact fun ss hss => accessor_closed h (m.overlooks_of_chars rfl) (hset ss hss)

theorem event_closed {x : Member} (hx : m.Overlooks x.name) {e : EventMember}
    (ho : e.outline.Overlooked m) : (event c x e).Closed m := by
  simp only [EventMember.outline, Outline.overlooked_beside, overlooked_statements?] at ho
  obtain ⟨htype, hadd, hremove⟩ := ho
  refine .append (.append (.append (.append (.append ?_ ?_) ?_) ?_) ?_) ?_
  · exact memberModifiers_closed x
  · exact .words rfl
  · exact h.typeRef htype
  · exact .words rfl
  · exact h.identifier hx
  · split
    · next add remove haddSome hremoveSome =>
      split
      · exact .wordsLine rfl
      · refine .append (fun _ _ => rfl) (Brace.braced_closed (.append ?_ ?_))
        · exact accessor_closed h (m.overlooks_of_chars rfl) (hadd add haddSome)
        · exact accessor_closed h (m.overlooks_of_chars rfl) (hremove remove hremoveSome)
    · exact .wordsLine rfl

/-- A member that is no type reads as nothing where it is written. -/
theorem memberRule_read {x : Member} (hx : m.Overlooks x.name) (ho : x.form.outline.Overlooked m)
    (ht : ∀ s ∈ x.form.texts, m.Overlooks s) (hn : ∀ t, x.form ≠ .nestedType t)
    {scope : Option TypeScope} (hs : ∀ s ∈ scope, m.Overlooks s.name) (opened : List Char) :
    (Language.csharp.memberRule c x).read m scope opened = some opened := by
  have howner := ownerName_read h hx hs
  obtain ⟨id, name, info, virtuality, isStatic, form⟩ := x
  have hgenerics : ∀ b : MethodBody, (∀ s ∈ b.genericParameters.map (·.name), m.Overlooks s) →
      ∀ p ∈ b.genericParameters, m.Overlooks p.name := fun b hb p hp =>
    hb _ (List.mem_map_of_mem hp)
  cases form with
  | constructor b =>
    have hb : b.outline.Overlooked m := ho
    simp only [MethodBody.outline, Outline.overlooked_beside, overlooked_statements] at hb
    have hmodifiers := memberModifiers_closed (m := m)
      ⟨id, name, info, virtuality, isStatic, .constructor b⟩
    have hparameters := Brace.parameterList_closed h hb.2.1
    have hbody := methodBody_closed h ⟨id, name, info, virtuality, isStatic, .constructor b⟩
      hb.2.2.2
    simp [Language.memberRule, Language.csharp, members, hmodifiers scope, howner,
      hparameters scope, hbody scope]
  | destructor b => exact h.unsupported rfl rfl scope opened
  | finalizer b =>
    have hb : b.outline.Overlooked m := ho
    simp only [MethodBody.outline, Outline.overlooked_beside, overlooked_statements] at hb
    have hbody := methodBody_closed h ⟨id, name, info, virtuality, isStatic, .finalizer b⟩
      hb.2.2.2
    simp [Language.memberRule, Language.csharp, members, howner, hbody scope]
  | method b => exact method_closed h hx ho (hgenerics b ht) scope opened
  | field f => exact field_closed h hx ho scope opened
  | property p => exact property_closed h hx ho scope opened
  | event e => exact event_closed h hx ho scope opened
  | customOperator operator b => exact customOperator_closed h _ operator ho scope opened
  | nestedType t => exact absurd rfl (hn t)

/-! ### Types -/

theorem enumCases_closed {cases : List EnumCase} (ho : ∀ v ∈ cases, v.outline.Overlooked m)
    (ht : ∀ v ∈ cases, ∀ s ∈ v.name :: Comment.texts v.comment, m.Overlooks s) :
    (enumCases c cases).Closed m := by
  induction cases with
  | nil => exact fun _ _ => rfl
  | cons v more ih =>
    have hv := ho v List.mem_cons_self
    have htexts := ht v List.mem_cons_self
    have hmore := ih (fun w hw => ho w (List.mem_cons_of_mem _ hw))
      fun w hw => ht w (List.mem_cons_of_mem _ hw)
    have hcomment := h.documentation? fun s hs => htexts s (List.mem_cons_of_mem _ hs)
    refine .append (.append (.append (.append (.append hcomment ?_) ?_) ?_) fun _ _ => rfl) hmore
    · exact h.identifier (htexts v.name List.mem_cons_self)
    · exact h.valueAfter (m.overlooks_of_chars rfl) hv
    · exact .when (.words rfl) _

theorem baseList_closed {bases : List TypeRef} (ho : ∀ t ∈ bases, t.outline.Overlooked m) :
    (baseList c bases).Closed m :=
  .when (.append (.words rfl) (h.typeRefs ho)) _

variable {setting : Setting} {scope : Option TypeScope}

theorem classLike_bears {keyword : String} (hk : m.Overlooks keyword) {t : TypeDefinition}
    (hname : m.Overlooks t.name) {body : ClassBody} (ho : body.outline.Overlooked m)
    (ht : ∀ s ∈ body.genericParameters.map (·.name), m.Overlooks s)
    (hm : ∀ x ∈ body.members, ∀ opened,
      Bears .csharp setting m (c.member x) scope opened opened (x.constructs .csharp))
    (opened : List Char) :
    Bears .csharp setting m (classLike c keyword t body) scope opened opened
      (body.constructs .csharp) := by
  obtain ⟨generics, ancestors, interfaces, xs, isStatic, isSealed, isAbstract, isPartial⟩ := body
  simp only [ClassBody.outline, Outline.overlooked_beside, Outline.overlooked_inOrder,
    overlooked_types] at ho
  obtain ⟨hancestors, hinterfaces, hgenerics, -⟩ := ho
  have hnames : ∀ p ∈ generics, m.Overlooks p.name := fun p hp => ht _ (List.mem_map_of_mem hp)
  have hbases : ∀ t ∈ ancestors ++ interfaces, t.outline.Overlooked m := fun t ht =>
    (List.mem_append.1 ht).elim (hancestors t) (hinterfaces t)
  have hlist : Bears .csharp setting m (memberList c xs) scope (m.enter '\x7b' opened)
      (m.enter '\x7b' opened) (.join (memberConstructs .csharp xs)) :=
    .members (memberList_lists c)
      (fun _ _ => Closed.when (d := newline) (fun _ _ => rfl) _) fun x hx => hm x hx _
  refine .pass (.append ?_ fun _ _ => rfl) hlist.braced
  refine .append (.append (.append (.append (.append (.append (.append (.append (.append (.append
    ?_ ?_) ?_) ?_) ?_) ?_) ?_) ?_) ?_) ?_) ?_
  · exact visibility_closed _
  · exact .when (.words rfl) _
  · exact .when (.words rfl) _
  · exact .when (.words rfl) _
  · exact .when (.words rfl) _
  · exact .text hk
  · exact .words rfl
  · exact h.identifier hname
  · exact Brace.genericNames_closed h hnames
  · exact baseList_closed h hbases
  · exact genericConstraints_closed h hgenerics hnames

/-- A type definition bears its members. -/
theorem definitionRule_bears {t : TypeDefinition} (hname : m.Overlooks t.name)
    (ho : t.form.outline.Overlooked m) (ht : ∀ s ∈ t.form.texts, m.Overlooks s)
    (hm : ∀ x ∈ t.members, ∀ opened,
      Bears .csharp setting m (c.member x) scope opened opened (x.constructs .csharp))
    (opened : List Char) :
    Bears .csharp setting m (Language.csharp.definitionRule c t) scope opened opened
      (t.form.constructs .csharp) := by
  have hvisibility : ∀ v, (wordSpace (visibilityWord v)).Closed m := visibility_closed
  obtain ⟨id, name, info, form⟩ := t
  have hidentifier := h.identifier hname
  cases form with
  | aliasType actual strict =>
    have hactual := h.typeRef (t := actual) ho
    refine .closed (.append (.append (.append (.append ?_ hidentifier) ?_) hactual) ?_)
    · exact .words rfl
    · exact .words rfl
    · exact .wordsLine rfl
  | enumeration base cases =>
    simp only [TypeDefinitionForm.outline, Outline.overlooked_beside,
      Outline.overlooked_inOrder] at ho
    have hcases : (enumCases c cases).Closed m := enumCases_closed h ho.2 fun v hv s hs =>
      ht s (List.mem_flatMap.2 ⟨v, hv, hs⟩)
    refine .closed (.append (.append (.append (.append (.append (hvisibility _) ?_) hidentifier) ?_)
      fun _ _ => rfl) (Brace.braced_closed hcases))
    · exact .words rfl
    · exact h.typeAfter (m.overlooks_of_chars rfl) ho.1
  | classType body | structType body | interfaceType body =>
    exact classLike_bears h (m.overlooks_of_chars rfl) hname ho ht hm opened
  | extensionType body => exact .closed (h.unsupported rfl rfl)
  | blockType parameters returnType =>
    simp only [TypeDefinitionForm.outline, Outline.overlooked_beside] at ho
    refine .closed (.append (.append (.append (.append (.append (.append (hvisibility _) ?_) ?_) ?_)
      hidentifier) ?_) ?_)
    · exact .words rfl
    · exact returnType_closed h ho.1
    · exact .words rfl
    · exact Brace.parameterList_closed h ho.2
    · exact .wordsLine rfl

/-! ### Units -/

omit h in
theorem globals_bear (hverbatim : (c.verbatim hostName).Closed m) {gs : List Global}
    (hm : ∀ g ∈ gs, ∀ opened, Bears .csharp setting m (c.member g.member)
      (some ⟨hostName, false, true⟩) opened opened (g.member.constructs .csharp))
    (opened : List Char) :
    Bears .csharp setting m (globals c gs) scope opened opened
      (.join (gs.map fun g => g.member.constructs .csharp)) := by
  have hforest : gs.map (fun g => g.member.constructs .csharp) =
      memberConstructs .csharp (gs.map Global.member) := by
    rw [memberConstructs_eq, List.map_map]
    rfl
  rw [globals, hforest]
  cases gs with
  | nil => exact .code rfl
  | cons g more =>
    have hlist : ∀ opened, Bears .csharp setting m (spacedMembers c ((g :: more).map Global.member))
        (some ⟨hostName, false, true⟩) opened opened
        (.join (memberConstructs .csharp ((g :: more).map Global.member))) := by
      intro opened
      refine .members (spacedMembers_lists c) (fun _ _ _ _ => rfl) fun x hx => ?_
      obtain ⟨y, hy, rfl⟩ := List.mem_map.1 hx
      exact hm y hy opened
    have hhead : (text "public static partial class " ++ c.verbatim hostName ++ newline).Closed m :=
      .append (.append (.words rfl) hverbatim) fun _ _ => rfl
    exact .pass hhead (Bears.braced (.inside (hlist _)))

/-- The declarations of a unit bear in its namespace what they bear without. -/
theorem enclose_bears {u : CodeUnit} (hs : ∀ space ∈ u.namespaceName, m.Overlooks space) {x : Doc}
    {f : Forest Construct} (hx : ∀ opened, Bears .csharp setting m x scope opened opened f)
    (opened : List Char) :
    Bears .csharp setting m (units.enclose c u x) scope opened opened f := by
  unfold units
  cases hspace : u.namespaceName with
  | none =>
    simp only [hspace]
    exact hx opened
  | some space =>
    simp only [hspace]
    have hhead : (text "namespace " ++ c.qualified space ++ newline).Closed m :=
      .append (.append (.words rfl) (h.qualified (hs space hspace)))
        fun _ _ => rfl
    exact .pass hhead (Bears.braced ((hx _).before rfl))

theorem importing_closed {i : Import} (hi : m.Overlooks i.name) :
    (hooks.importing c i).Closed m := by
  refine .append (.append (.text ?_) (h.qualified hi)) (.wordsLine rfl)
  split
  · exact m.overlooks_of_chars rfl
  · exact m.overlooks_of_chars rfl

theorem attributeLine_closed {a : Attribute} (ho : a.outline.Overlooked m)
    (ht : ∀ s ∈ argumentTexts a.arguments, m.Overlooks s) :
    (units.attributeLine c a).Closed m := by
  simp only [Attribute.outline, Outline.overlooked_beside] at ho
  have htype := h.typeRef ho.2.1
  have hlist := Brace.argumentClause_closed h ho.2.2 ht
  intro scope opened
  simp [units, htype scope, hlist scope]

end CSharp

end SourcePrinter
