import SourcePrinter.Proofs.OneLine.Context

/-! The rules of C# for expressions and types keep to the line. -/

namespace SourcePrinter

namespace CSharp

open Doc

variable {c : Context}

/-! ### Expressions -/

theorem lineFeed_not_mem_baseMark (base : Nat) : ∀ mark ∈ baseMark base, '\n' ∉ mark.toList := by
  intro mark hmark
  unfold baseMark at hmark
  split at hmark <;> cases hmark <;> decide

theorem lineFeed_not_mem_binarySymbol {operator : BinaryOperator} :
    ∀ s ∈ binarySymbol operator, '\n' ∉ s.toList := by
  intro s hs
  unfold binarySymbol at hs
  split at hs
  · cases hs
    decide
  · cases hs
    decide
  · exact Brace.lineFeed_not_mem_binarySymbol s hs

variable (h : c.InLine)

include h

theorem array_inLine {elements : List Expression} {elementType : Option TypeRef}
    (he : ∀ e ∈ elements, e.outline.InLine) (ht : ∀ t ∈ elementType, t.outline.InLine) :
    (array c elements elementType).InLine := by
  have helements := h.expressions he
  refine ⟨?_, ?_⟩
  · cases elementType with
    | none => cases elements <;> simp
    | some t => simp [h.typeRef (ht t rfl)]
  · split
    · simp
    · simp [helements]

theorem typeOrObject_inLine {t : Option TypeRef} (ht : ∀ u ∈ t, u.outline.InLine) :
    (typeOrObject c t).InLine := by
  cases t with
  | none => simp [typeOrObject]
  | some t => exact h.typeRef (ht t rfl)

theorem dictionary_inLine {d : DictionaryLiteral} (ho : d.outline.InLine) :
    (dictionary c d).InLine := by
  obtain ⟨keys, values, keyType, valueType⟩ := d
  simp only [DictionaryLiteral.outline, Outline.all_beside, Outline.all_type?] at ho
  refine ⟨?_, ?_⟩
  · simp [typeOrObject_inLine h ho.1, typeOrObject_inLine h ho.2.1]
  · split
    · simp
    · have hentry : ∀ k v, (c.expression k).InLine → (c.expression v).InLine →
          (text "\x7b " ++ c.expression k ++ text ", " ++ c.expression v ++ text " \x7d").InLine :=
        fun k v hk hv => by simp [hk, hv]
      simp [Brace.entries_inLine h ho.2.2 hentry]

theorem typeCast_inLine {cast : TypeCast} (ho : cast.outline.InLine) :
    (typeCast c cast).InLine := by
  obtain ⟨value, type, throws⟩ := cast
  simp only [TypeCast.outline, Outline.all_beside] at ho
  have hvalue := h.expression ho.1
  have htype := h.typeRef ho.2
  unfold typeCast
  split
  · refine ⟨by simp [htype], ?_⟩
    split
    · exact hvalue
    · simp [hvalue]
  · simp [hvalue, htype]

theorem expressionRule_inLine {e : Expression} (ho : e.outline.InLine) :
    (Language.csharp.expressionRule c e).InLine := by
  obtain ⟨id, form⟩ := e
  rw [Expression.outline_eq, Outline.InLine, Outline.all_node] at ho
  obtain ⟨ht, ho⟩ := ho
  cases form with
  | nil | selfReference | inherited =>
    simp [Language.expressionRule, Language.csharp, expressions]
  | boolean value => exact Brace.booleanLiteral_inLine value
  | integer value base =>
    simp only [Language.expressionRule]
    split
    · exact Brace.integerLiteral_inLine lineFeed_not_mem_baseMark value base
    · trivial
  | float value => exact Brace.floatLiteral_inLine value
  | string s => exact Quoted.lineFeed_not_mem_literal (.inl rfl) _ _ _
  | character value =>
    simp only [Language.expressionRule, Language.csharp, expressions, character]
    split
    · exact Quoted.lineFeed_not_mem_literal (.inr rfl) _ _ _
    · trivial
  | array elements elementType =>
    simp only [ExpressionForm.outline, Outline.all_beside, Outline.all_type?,
      Outline.all_expressions] at ho
    exact array_inLine h ho.2 ho.1
  | dictionary literal =>
    simp only [Language.expressionRule]
    split
    · exact dictionary_inLine h ho
    · trivial
  | tuple members =>
    have hmembers := h.expressions (Outline.all_expressions.1 ho)
    simp [Language.expressionRule, Language.csharp, expressions, hmembers]
  | result => exact h.unsupported rfl
  | identifier name | localVariable name => exact h.identifier (ht name List.mem_cons_self)
  | field access => exact Brace.field_inLine h ho (ht _ List.mem_cons_self)
  | property access =>
    obtain ⟨hname, harguments⟩ := List.forall_mem_cons.1 ht
    exact Brace.property_inLine h ho hname harguments
  | call x =>
    obtain ⟨hname, harguments⟩ := List.forall_mem_cons.1 ht
    exact Brace.call_inLine h ho hname harguments
  | newInstance type arguments =>
    simp only [ExpressionForm.outline, Outline.all_beside, Outline.all_arguments] at ho
    have htype := h.typeRef ho.1
    have harguments := Brace.arguments_inLine h ho.2 ht
    simp [Language.expressionRule, Language.csharp, expressions, htype, harguments]
  | element array indices =>
    simp only [ExpressionForm.outline, Outline.all_beside, Outline.all_expressions] at ho
    exact Brace.element_inLine h ho.1 ho.2
  | enumValue type value =>
    have htype := h.typeRef (t := type) ho
    have hname := h.identifier (ht value List.mem_cons_self)
    simp [Language.expressionRule, Language.csharp, expressions, ExpressionRules.plain, htype,
      hname]
  | typeReference type => exact h.typeRef ho
  | typeOf type | sizeOf type | defaultOf type =>
    have htype := h.typeRef (t := type) ho
    simp [Language.expressionRule, Language.csharp, expressions, htype]
  | typeCheck value type =>
    simp only [ExpressionForm.outline, Outline.all_beside] at ho
    have hvalue := h.expression ho.1
    have htype := h.typeRef ho.2
    simp [Language.expressionRule, Language.csharp, expressions, hvalue, htype]
  | typeCast cast => exact typeCast_inLine h ho
  | binary lhs operator rhs =>
    simp only [ExpressionForm.outline, Outline.all_beside] at ho
    exact Brace.binary_inLine h lineFeed_not_mem_binarySymbol ho.1 ho.2 operator
  | unary operator value => exact Brace.unary_inLine h ho operator
  | conditional condition ifTrue ifFalse =>
    simp only [ExpressionForm.outline, Outline.all_beside] at ho
    exact Brace.conditional_inLine h ho.1 ho.2.1 ho.2.2
  | parentheses inner | await inner | addressOf inner | dereference inner =>
    have hinner := h.expression (e := inner) ho
    simp [Language.expressionRule, Language.csharp, expressions, hinner]
  | range start stop inclusive =>
    simp only [ExpressionForm.outline, Outline.all_beside] at ho
    have hstart := h.expression ho.1
    have hstop := h.expression ho.2
    cases inclusive with
    | true =>
      have hdetail : Plain "inclusive upper bound" := .of_chars rfl
      exact h.lacking (.of_chars rfl) fun _ hs => Option.some.inj hs ▸ hdetail
    | false => simp [Language.expressionRule, Language.csharp, expressions, hstart, hstop]
  | anonymousMethod method => exact ht.elim
  | raw s => exact ht s List.mem_cons_self

/-! ### Types -/

omit h in
theorem nullableMark_inLine (t : TypeRef) : (nullableMark t).InLine := .when (by simp) _

theorem inlineBlock_inLine {block : InlineBlock} (ho : block.outline.InLine) :
    (inlineBlock c block).InLine := by
  obtain ⟨parameters, returnType, kind⟩ := block
  simp only [InlineBlock.outline, Outline.all_beside, Outline.all_types, Outline.all_type?] at ho
  unfold inlineBlock
  cases returnType with
  | none =>
    have hparameters := h.typeRefs ho.1
    simp only
    split
    · simp
    · simp [hparameters]
  | some result =>
    have htypes : ∀ t ∈ parameters ++ [result], t.outline.InLine := by
      intro t ht
      rcases List.mem_append.1 ht with ht | ht
      · exact ho.1 t ht
      · rw [List.mem_singleton.1 ht]
        exact ho.2 result rfl
    simp [h.typeRefs htypes]

theorem typeRule_inLine {t : TypeRef} (ho : t.form.outline.InLine)
    (ht : ∀ s ∈ t.form.texts, '\n' ∉ s.toList) : (Language.csharp.typeRule c t).InLine := by
  obtain ⟨id, form, explicit, implied, isClass, defaultValue⟩ := t
  cases form with
  | named type =>
    obtain ⟨name, space, types⟩ := type
    have hname := h.typeName (n := ⟨name, space, types⟩) (ht name List.mem_cons_self)
      fun s hs => ht s (List.mem_cons_of_mem _ (Option.mem_toList.2 hs))
    have htypes := Brace.genericArguments_inLine h (Outline.all_types.1 ho)
    exact ⟨⟨hname, htypes⟩, nullableMark_inLine _⟩
  | predefined type =>
    have hname : '\n' ∉ (predefinedName type).toList := by cases type <;> decide
    exact ⟨hname, nullableMark_inLine _⟩
  | pointer target kind =>
    have htarget := h.typeRef (t := target) ho
    cases kind <;> simp [Language.typeRule, Language.csharp, types, htarget]
  | array element bounds kind =>
    have helement := h.typeRef (t := element) ho
    simp [Language.typeRule, Language.csharp, types, helement, nullableMark_inLine,
      List.mem_replicate]
  | dictionary key value =>
    simp only [TypeForm.outline, Outline.all_beside] at ho
    have hkey := h.typeRef ho.1
    have hvalue := h.typeRef ho.2
    simp [Language.typeRule, Language.csharp, types, hkey, hvalue]
  | tuple members =>
    have hmembers := h.typeRefs (Outline.all_types.1 ho)
    simp [Language.typeRule, Language.csharp, types, hmembers, nullableMark_inLine]
  | sequence element =>
    have helement := h.typeRef (t := element) ho
    simp [Language.typeRule, Language.csharp, types, helement]
  | kindOf target | constant target => exact h.typeRef ho
  | inlineBlock block => exact inlineBlock_inLine h ho
  | range start stop => exact h.unsupported rfl
  | unknown => simp [Language.typeRule, Language.csharp, types]

end CSharp

end SourcePrinter
