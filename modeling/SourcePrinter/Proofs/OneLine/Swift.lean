import SourcePrinter.Proofs.OneLine.Context

/-! The rules of Swift for expressions and types keep to the line. -/

namespace SourcePrinter

namespace Swift

open Doc

section

theorem lineFeed_not_mem_baseMark (base : Nat) : ∀ mark ∈ baseMark base, '\n' ∉ mark.toList := by
  intro mark hmark
  unfold baseMark at hmark
  split at hmark <;> cases hmark <;> decide

theorem lineFeed_not_mem_binarySymbol {operator : BinaryOperator} :
    ∀ s ∈ binarySymbol operator, '\n' ∉ s.toList := by
  intro s hs
  unfold binarySymbol at hs
  split at hs
  · cases hs
    decide
  · cases hs
    decide
  · exact Brace.lineFeed_not_mem_binarySymbol s hs

theorem lineFeed_not_mem_caseName {name : String} (hn : '\n' ∉ name.toList)
    (lowercaseCases : Bool) : '\n' ∉ (caseName lowercaseCases name).toList := by
  cases lowercaseCases with
  | false => exact hn
  | true =>
    have hname : ∀ c ∈ name.toList, c ≠ '\n' := fun c hc he => hn (he ▸ hc)
    exact fun hc => forall_lowercaseFirst (fun _ hd => hd.2) hname '\n' hc rfl

theorem optionalMark_inLine (t : TypeRef) : (optionalMark t).InLine := by
  unfold optionalMark
  split <;> simp

variable {c : Context} (h : c.InLine)

include h

/-! ### Types -/

theorem presentType_inLine {t : TypeRef} (ho : t.outline.InLine) : (presentType c t).InLine :=
  h.typeRefAs ho _

theorem resultType_inLine {t : Option TypeRef} (ht : ∀ u ∈ t, u.outline.InLine) :
    (resultType c t).InLine := by
  cases t with
  | none => simp [resultType]
  | some result =>
    unfold resultType
    simp only
    split
    · simp
    · exact h.typeRef (ht result rfl)

theorem functionType_inLine {block : InlineBlock} (ho : block.outline.InLine) :
    (functionType c block).InLine := by
  obtain ⟨parameters, returnType, kind⟩ := block
  simp only [InlineBlock.outline, Outline.all_beside, Outline.all_types, Outline.all_type?] at ho
  simp [functionType, h.typeRefs ho.1, resultType_inLine h ho.2]

theorem typeRule_inLine {lowercaseCases : Bool} {t : TypeRef} (ho : t.form.outline.InLine)
    (ht : ∀ s ∈ t.form.texts, '\n' ∉ s.toList) :
    ((Language.swift lowercaseCases).typeRule c t).InLine := by
  have hmark := optionalMark_inLine t
  obtain ⟨id, form, explicit, implied, isClass, defaultValue⟩ := t
  cases form with
  | named type =>
    obtain ⟨name, space, types⟩ := type
    have hname := h.typeName (n := ⟨name, space, types⟩) (ht name List.mem_cons_self)
      fun s hs => ht s (List.mem_cons_of_mem _ (Option.mem_toList.2 hs))
    have htypes := Brace.genericArguments_inLine h (Outline.all_types.1 ho)
    exact ⟨⟨hname, htypes⟩, hmark⟩
  | predefined type =>
    have hname : '\n' ∉ (predefinedName type).toList := by cases type <;> decide
    exact ⟨hname, hmark.when _⟩
  | pointer target kind =>
    have htarget := h.typeRef (t := target) ho
    cases kind <;> simp [Language.typeRule, Language.swift, types, htarget, hmark]
  | array element bounds kind =>
    have helement := h.typeRef (t := element) ho
    simp [Language.typeRule, Language.swift, types, helement, hmark]
  | dictionary key value =>
    simp only [TypeForm.outline, Outline.all_beside] at ho
    have hkey := h.typeRef ho.1
    have hvalue := h.typeRef ho.2
    simp [Language.typeRule, Language.swift, types, hkey, hvalue, hmark]
  | tuple members =>
    have hmembers := h.typeRefs (Outline.all_types.1 ho)
    simp [Language.typeRule, Language.swift, types, hmembers, hmark]
  | sequence element =>
    have helement := h.typeRef (t := element) ho
    simp [Language.typeRule, Language.swift, types, helement, hmark]
  | kindOf target | constant target => exact h.typeRef ho
  | inlineBlock block =>
    have hfunction : (functionType c block).InLine := functionType_inLine h ho
    simp only [Language.typeRule, Language.swift, types]
    split
    · simp [hfunction, hmark]
    · exact hfunction
  | range start stop => exact h.unsupported rfl
  | unknown => simp [Language.typeRule, Language.swift, types]

/-! ### Expressions -/

theorem array_inLine {elements : List Expression} {elementType : Option TypeRef}
    (he : ∀ e ∈ elements, e.outline.InLine) (ht : ∀ t ∈ elementType, t.outline.InLine) :
    (array c elements elementType).InLine := by
  have helements := h.expressions he
  unfold array
  split
  · next t => simp [h.typeRef (ht t rfl)]
  · simp [helements]

theorem dictionary_inLine {d : DictionaryLiteral} (ho : d.outline.InLine) :
    (dictionary c d).InLine := by
  obtain ⟨keys, values, keyType, valueType⟩ := d
  simp only [DictionaryLiteral.outline, Outline.all_beside] at ho
  unfold dictionary
  split
  · simp
  · have hentry : ∀ k v, (c.expression k).InLine → (c.expression v).InLine →
        (c.expression k ++ text ": " ++ c.expression v).InLine :=
      fun k v hk hv => by simp [hk, hv]
    simp [Brace.entries_inLine h ho.2.2 hentry]

theorem defaultOf_inLine {t : TypeRef} (ho : t.outline.InLine) : (defaultOf c t).InLine := by
  rw [TypeRef.outline_eq, Outline.InLine, Outline.all_node, Outline.all_beside,
    Outline.all_carried, Outline.all_expression?] at ho
  unfold defaultOf
  split
  · next value hvalue => exact h.expression (ho.2.2 value hvalue)
  · have hdetail : Plain "type has no default value" := .of_chars rfl
    exact h.lacking (.of_chars rfl) fun _ hs => Option.some.inj hs ▸ hdetail

theorem expressionRule_inLine {lowercaseCases : Bool} {e : Expression} (ho : e.outline.InLine) :
    ((Language.swift lowercaseCases).expressionRule c e).InLine := by
  obtain ⟨id, form⟩ := e
  rw [Expression.outline_eq, Outline.InLine, Outline.all_node] at ho
  obtain ⟨ht, ho⟩ := ho
  cases form with
  | nil | selfReference | inherited =>
    simp [Language.expressionRule, Language.swift, expressions]
  | boolean value => exact Brace.booleanLiteral_inLine value
  | integer value base =>
    simp only [Language.expressionRule]
    split
    · exact Brace.integerLiteral_inLine lineFeed_not_mem_baseMark value base
    · trivial
  | float value => exact Brace.floatLiteral_inLine value
  | string s | character value => exact Quoted.lineFeed_not_mem_literal (.inl rfl) _ _ _
  | array elements elementType =>
    simp only [ExpressionForm.outline, Outline.all_beside, Outline.all_type?,
      Outline.all_expressions] at ho
    exact array_inLine h ho.2 ho.1
  | dictionary literal =>
    simp only [Language.expressionRule]
    split
    · exact dictionary_inLine h ho
    · trivial
  | tuple members =>
    have hmembers := h.expressions (Outline.all_expressions.1 ho)
    simp [Language.expressionRule, Language.swift, expressions, hmembers]
  | result => exact h.unsupported rfl
  | identifier name | localVariable name => exact h.identifier (ht name List.mem_cons_self)
  | field access => exact Brace.field_inLine h ho (ht _ List.mem_cons_self)
  | property access =>
    obtain ⟨hname, harguments⟩ := List.forall_mem_cons.1 ht
    exact Brace.property_inLine h ho hname harguments
  | call x =>
    obtain ⟨hname, harguments⟩ := List.forall_mem_cons.1 ht
    exact Brace.call_inLine h ho hname harguments
  | newInstance type arguments =>
    simp only [ExpressionForm.outline, Outline.all_beside, Outline.all_arguments] at ho
    have htype := presentType_inLine h ho.1
    have harguments := Brace.arguments_inLine h ho.2 ht
    simp [Language.expressionRule, Language.swift, expressions, htype, harguments]
  | element array indices =>
    simp only [ExpressionForm.outline, Outline.all_beside, Outline.all_expressions] at ho
    exact Brace.element_inLine h ho.1 ho.2
  | enumValue type value =>
    have htype := presentType_inLine h (t := type) ho
    have hname := h.identifier
      (lineFeed_not_mem_caseName (ht value List.mem_cons_self) lowercaseCases)
    simp [Language.expressionRule, Language.swift, expressions, htype, hname]
  | typeReference type => exact h.typeRef ho
  | typeOf type | sizeOf type =>
    have htype := h.typeRef (t := type) ho
    simp [Language.expressionRule, Language.swift, expressions, htype]
  | defaultOf type => exact defaultOf_inLine h ho
  | typeCheck value type =>
    simp only [ExpressionForm.outline, Outline.all_beside] at ho
    have hvalue := h.expression ho.1
    have htype := presentType_inLine h ho.2
    simp [Language.expressionRule, Language.swift, expressions, hvalue, htype]
  | typeCast cast =>
    obtain ⟨value, type, throws⟩ := cast
    simp only [ExpressionForm.outline, TypeCast.outline, Outline.all_beside] at ho
    have hvalue := h.expression ho.1
    have htype := presentType_inLine h ho.2
    cases throws <;> simp [Language.expressionRule, Language.swift, expressions, hvalue, htype]
  | binary lhs operator rhs =>
    simp only [ExpressionForm.outline, Outline.all_beside] at ho
    exact Brace.binary_inLine h lineFeed_not_mem_binarySymbol ho.1 ho.2 operator
  | unary operator value => exact Brace.unary_inLine h ho operator
  | conditional condition ifTrue ifFalse =>
    simp only [ExpressionForm.outline, Outline.all_beside] at ho
    exact Brace.conditional_inLine h ho.1 ho.2.1 ho.2.2
  | parentheses inner | await inner | addressOf inner | dereference inner =>
    have hinner := h.expression (e := inner) ho
    simp [Language.expressionRule, Language.swift, expressions, hinner]
  | range start stop inclusive =>
    simp only [ExpressionForm.outline, Outline.all_beside] at ho
    have hstart := h.expression ho.1
    have hstop := h.expression ho.2
    cases inclusive <;> simp [Language.expressionRule, Language.swift, expressions, hstart, hstop]
  | anonymousMethod method => exact ht.elim
  | raw s => exact ht s List.mem_cons_self

end

end Swift

end SourcePrinter
