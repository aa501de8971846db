import SourcePrinter.Proofs.Closing.Context

/-! The shared rules of the languages with curly braces give closed documents: every bracket that one
of them opens it closes again, around parts that are closed. -/

namespace SourcePrinter

namespace Brace

open Doc

attribute [local simp] isInk isOpening isClosing Reading.isIdle

section

variable {m : Reading} {c : Context}

/-! ### Literals -/

theorem stringLiteral_closed (style : UnicodeEscape) {s : String} (ht : m.Overlooks s) :
    (stringLiteral c style s).Closed m :=
  Quoted.closed_literal rfl ht _ style

theorem characterLiteral_closed {quote : Char} (hq : Reading.isIdle quote = true)
    (style : UnicodeEscape) {value : Char} (ht : m.Overlooks (.singleton value)) :
    (characterLiteral c quote style value).Closed m := by
  refine Quoted.closed_literal hq (fun d hd => ht d ?_) _ style
  simpa using hd

theorem integerLiteral_closed {mark? : Nat → Option String}
    (hm : ∀ base, ∀ mark ∈ mark? base, m.Overlooks mark) (value : Int) (base : Nat) :
    (integerLiteral c mark? value base).Closed m := by
  unfold integerLiteral
  split
  · next mark hmark => exact .text (overlooks_integerText (hm base mark hmark) value base)
  · exact fun _ _ => rfl

theorem floatLiteral_closed (value : Binary64) : (floatLiteral value).Closed m := by
  unfold floatLiteral
  split
  · exact .text (overlooks_floatText value)
  · exact fun _ _ => rfl

theorem booleanLiteral_closed (value : Bool) : (booleanLiteral value).Closed m := by
  cases value with
  | false => exact .words rfl
  | true => exact .words rfl

theorem overlooks_binarySymbol {operator : BinaryOperator} :
    ∀ s ∈ binarySymbol operator, m.Overlooks s := by
  intro s hs
  cases operator <;> cases hs <;> exact m.overlooks_of_chars rfl

/-! ### Blocks -/

theorem braced_closed {d : Doc} (hd : d.Closed m) : (braced d).Closed m := by
  intro scope opened
  simp [braced, hd scope]

variable (h : c.Closes m)

include h

theorem block_closed {ss : List Statement} (ho : ∀ s ∈ ss, s.outline.Overlooked m) :
    (block c ss).Closed m :=
  braced_closed (h.statements ho)

theorem body_closed {s : Statement} (ho : s.outline.Overlooked m) : (body c s).Closed m :=
  braced_closed (h.body ho)

/-! ### Operators -/

theorem binary_closed {symbol : Option String} (hs : ∀ s ∈ symbol, m.Overlooks s)
    {lhs rhs : Expression} (hl : lhs.outline.Overlooked m) (hr : rhs.outline.Overlooked m)
    (operator : BinaryOperator) : (binary c symbol lhs operator rhs).Closed m := by
  cases symbol with
  | none =>
    have hname : m.Overlooks operator.name := by
      cases operator <;> exact m.overlooks_of_chars rfl
    exact h.unsupported_detail rfl rfl ⟨plain_name operator, hname⟩
  | some s =>
    have hspace : m.Overlooks " " := m.overlooks_of_chars rfl
    have hsymbol : m.Overlooks (" " ++ s ++ " ") := (hspace.append (hs s rfl)).append hspace
    exact ((h.expression hl).append (.text hsymbol)).append (h.expression hr)

theorem unary_closed {value : Expression} (hv : value.outline.Overlooked m)
    (operator : UnaryOperator) : (unary c operator value).Closed m := by
  have hsymbol : m.Overlooks (unarySymbol operator) := by
    cases operator <;> exact m.overlooks_of_chars rfl
  exact .append (.text hsymbol) (h.expression hv)

theorem conditional_closed {condition ifTrue ifFalse : Expression}
    (hc : condition.outline.Overlooked m) (ht : ifTrue.outline.Overlooked m)
    (hf : ifFalse.outline.Overlooked m) : (conditional c condition ifTrue ifFalse).Closed m := by
  intro scope opened
  simp [conditional, h.expression hc scope, h.expression ht scope, h.expression hf scope]

/-! ### Access and calls -/

theorem site_closed {value : Option Expression} (hv : (expressionOutline? value).Overlooked m)
    (nullSafe : Bool) : (site c value nullSafe).Closed m := by
  refine .whenSome fun e he => .append (h.expression (overlooked_expression?.1 hv e he)) (.text ?_)
  cases nullSafe with
  | false => exact m.overlooks_of_chars rfl
  | true => exact m.overlooks_of_chars rfl

theorem arguments_closed {as : List Argument}
    (ho : (Outline.inOrder (argumentOutlines as)).Overlooked m)
    (ht : ∀ s ∈ argumentTexts as, m.Overlooks s) : (arguments c as).Closed m := by
  refine .commaList fun a ha => .append (.whenSome fun label hlabel => ?_) ?_
  · have hmem : label ∈ argumentTexts as := List.mem_filterMap.2 ⟨a, ha, hlabel⟩
    exact (h.identifier (ht label hmem)).append (.words rfl)
  · have hvalue := overlooked_arguments.1 ho a ha
    cases a
    exact h.expression hvalue

/-- Arguments in parentheses, which are left out where there are none. -/
theorem argumentClause_closed {as : List Argument}
    (ho : (Outline.inOrder (argumentOutlines as)).Overlooked m)
    (ht : ∀ s ∈ argumentTexts as, m.Overlooks s) :
    (Doc.when (!as.isEmpty) (text "(" ++ arguments c as ++ text ")")).Closed m := by
  have harguments := arguments_closed h ho ht
  refine .when ?_ _
  intro scope opened
  simp [harguments scope]

theorem field_closed {access : FieldAccess} (ho : access.outline.Overlooked m)
    (ht : m.Overlooks access.name) : (field c access).Closed m := by
  obtain ⟨value, name, nullSafe⟩ := access
  exact (site_closed h ho nullSafe).append (h.identifier ht)

theorem property_closed {access : PropertyAccess} (ho : access.outline.Overlooked m)
    (ht : m.Overlooks access.name) (ha : ∀ s ∈ argumentTexts access.arguments, m.Overlooks s) :
    (property c access).Closed m := by
  obtain ⟨value, name, as, nullSafe⟩ := access
  simp only [PropertyAccess.outline, Outline.overlooked_beside] at ho
  refine (site_closed h ho.1 nullSafe).append ?_
  have hname := h.identifier ht
  have harguments := arguments_closed h ho.2 ha
  cases as with
  | nil => exact hname
  | cons a more =>
    have hlabel := hname.when (!name.isEmpty)
    intro scope opened
    simp [hlabel scope, harguments scope]

theorem genericArguments_closed {types : List TypeRef} (ho : ∀ t ∈ types, t.outline.Overlooked m) :
    (genericArguments c types).Closed m := by
  have htypes := h.typeRefs ho
  refine .when ?_ _
  intro scope opened
  simp [htypes scope]

theorem call_closed {x : MethodCall} (ho : x.outline.Overlooked m) (ht : m.Overlooks x.name)
    (ha : ∀ s ∈ argumentTexts x.arguments, m.Overlooks s) : (call c x).Closed m := by
  obtain ⟨value, name, types, as, nullSafe⟩ := x
  simp only [MethodCall.outline, Outline.overlooked_beside, overlooked_types] at ho
  have hsite := site_closed h ho.1 nullSafe
  have hname := h.identifier ht
  have htypes := genericArguments_closed h ho.2.1
  have harguments := arguments_closed h ho.2.2 ha
  intro scope opened
  simp [call, hsite scope, hname scope, htypes scope, harguments scope]

theorem element_closed {array : Expression} {indices : List Expression}
    (ha : array.outline.Overlooked m) (hi : ∀ e ∈ indices, e.outline.Overlooked m) :
    (element c array indices).Closed m := by
  intro scope opened
  simp [element, h.expression ha scope, h.expressions hi scope]

theorem genericNames_closed {parameters : List GenericParameter}
    (ht : ∀ p ∈ parameters, m.Overlooks p.name) : (genericNames c parameters).Closed m := by
  have hnames : (commaList (parameters.map fun p => c.identifier p.name)).Closed m :=
    .commaList fun p hp => h.identifier (ht p hp)
  refine .when ?_ _
  intro scope opened
  simp [hnames scope]

theorem parameterList_closed {parameters : List Parameter}
    (ho : (Outline.inOrder (parameterOutlines parameters)).Overlooked m) :
    (parameterList c parameters).Closed m := by
  have hlist : (commaList (parameters.map c.parameter)).Closed m :=
    .commaList fun p hp => h.parameter (overlooked_parameters.1 ho p hp)
  intro scope opened
  simp [parameterList, hlist scope]

/-- The entries of a dictionary are closed if a key and a value make a closed entry. -/
theorem entries_closed {keys values : List Expression}
    (ho : (Outline.entries (expressionOutlines keys) (expressionOutlines values)).Overlooked m)
    {entry : Expression × Expression → Doc}
    (hentry : ∀ k v, (c.expression k).Closed m → (c.expression v).Closed m →
      (entry (k, v)).Closed m) :
    (commaList ((keys.zip values).map entry)).Closed m := by
  obtain ⟨hkeys, hvalues⟩ := overlooked_entries ho
  rw [expressionOutlines_eq] at hkeys hvalues
  refine .commaList ?_
  rintro ⟨k, v⟩ hpair
  obtain ⟨hk, hv⟩ := List.of_mem_zip hpair
  have hkey := h.expression (hkeys _ (List.mem_map_of_mem hk))
  have hvalue := h.expression (hvalues _ (List.mem_map_of_mem hv))
  exact hentry k v hkey hvalue

/-! ### Statements -/

theorem expressionStatement_closed {value : Expression} (hv : value.outline.Overlooked m) :
    (expressionStatement c value).Closed m :=
  .append (h.expression hv) (.wordsLine rfl)

theorem assignment_closed {target value : Expression} (ht : target.outline.Overlooked m)
    (hv : value.outline.Overlooked m) : (assignment c target value).Closed m := by
  intro scope opened
  simp [assignment, h.expression ht scope, h.expression hv scope]

theorem keywordStatement_closed {keyword : String} (hk : m.Overlooks keyword)
    {value : Option Expression} (hv : (expressionOutline? value).Overlooked m) :
    (keywordStatement c keyword value).Closed m := by
  refine .append (.append (.text hk) ?_) (.wordsLine rfl)
  exact h.valueAfter (m.overlooks_of_chars rfl) hv

theorem conditionalStatement_closed {condition : Expression} {thenBranch : Statement}
    {elseBranch : Option Statement} (hc : condition.outline.Overlooked m)
    (ht : thenBranch.outline.Overlooked m) (he : (statementOutline? elseBranch).Overlooked m) :
    (conditionalStatement c condition thenBranch elseBranch).Closed m := by
  have hhead : (text "if (" ++ c.expression condition ++ line ")").Closed m := by
    intro scope opened
    simp [h.expression hc scope]
  refine (hhead.append (body_closed h ht)).append (.whenSome fun other hother => ?_)
  have hother := overlooked_statement?.1 he other hother
  split
  · exact .append (.words rfl) (h.statement hother)
  · exact .append (.wordsLine rfl) (body_closed h hother)

theorem whileLoop_closed {condition : Expression} {s : Statement}
    (hc : condition.outline.Overlooked m) (hs : s.outline.Overlooked m) :
    (whileLoop c condition s).Closed m := by
  have hbody := body_closed h hs
  intro scope opened
  simp [whileLoop, h.expression hc scope, hbody scope]

theorem doWhile_closed {condition : Expression} {s : Statement}
    (hc : condition.outline.Overlooked m) (hs : s.outline.Overlooked m) :
    (doWhile c condition s).Closed m := by
  have hbody := body_closed h hs
  intro scope opened
  simp [doWhile, h.expression hc scope, hbody scope]

end

end Brace

end SourcePrinter
