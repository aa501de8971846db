import SourcePrinter.Proofs.Literals
import SourcePrinter.Proofs.OneLine
import SourcePrinter.Proofs.Policy

/-! Trees in one line: no name and no raw text in them has a line feed, and there are no anonymous
methods. A context that writes such expressions and types in one line does so with what the
languages with curly braces make of them. -/

namespace SourcePrinter

open Doc

/-! ### Trees -/

/-- Names and raw texts have no line feeds. A literal may have some, which are escaped; the body of
an anonymous method is never in one line. -/
def ExpressionForm.InLine : ExpressionForm → Prop
  | .string _ | .character _ => True
  | .anonymousMethod _ => False
  | form => ∀ s ∈ form.texts, '\n' ∉ s.toList

instance ExpressionForm.decidableInLine : (form : ExpressionForm) → Decidable form.InLine
  | .string _ | .character _ => .isTrue trivial
  | .anonymousMethod _ => .isFalse id
  | .nil | .boolean _ | .integer .. | .float _ | .array .. | .dictionary _ | .tuple _
  | .selfReference | .inherited | .result | .identifier _ | .localVariable _ | .field _
  | .property _ | .call _ | .newInstance .. | .element .. | .enumValue .. | .typeReference _
  | .typeOf _ | .sizeOf _ | .defaultOf _ | .typeCheck .. | .typeCast _ | .binary .. | .unary ..
  | .conditional .. | .parentheses _ | .await _ | .addressOf _ | .dereference _ | .range ..
  | .raw _ => inferInstanceAs (Decidable (∀ s ∈ ExpressionForm.texts _, '\n' ∉ s.toList))

def Node.InLine : Node → Prop
  | expression e => e.form.InLine
  | n => ∀ s ∈ n.texts, '\n' ∉ s.toList

instance Node.decidableInLine : (n : Node) → Decidable n.InLine
  | expression e => inferInstanceAs (Decidable e.form.InLine)
  | unit _ | definition _ | member _ | parameter _ | statement _ | typeRef _ =>
    inferInstanceAs (Decidable (∀ s ∈ texts _, '\n' ∉ s.toList))

/-- All nodes of the tree are in one line, those that type references carry included. -/
abbrev Outline.InLine (o : Outline) : Prop := o.All Node.InLine

/-! ### Contexts -/

/-- A context for C# or Swift that writes expressions and types in one line. -/
structure Context.InLine (c : Context) : Prop where
  language : c.language = "C#" ∨ c.language = "Swift"
  remark : c.remark = Brace.inlineComment
  resolve : ∀ {name}, '\n' ∉ name.toList → ∀ spelling qualification,
    '\n' ∉ (c.naming.resolve spelling qualification name).toList
  expression : ∀ {e}, e.outline.InLine → (c.expression e).InLine
  typeRef : ∀ {t}, t.outline.InLine → (c.typeRef t).InLine
  typeRefAs : ∀ {t}, t.outline.InLine → ∀ n, (c.typeRefAs n t).InLine

namespace Context.InLine

variable {c : Context} {name : String} (h : c.InLine)

include h

theorem expressions {es : List Expression} (ho : ∀ e ∈ es, e.outline.InLine) :
    (c.expressions es).InLine :=
  .commaList fun e he => h.expression (ho e he)

theorem typeRefs {ts : List TypeRef} (ho : ∀ t ∈ ts, t.outline.InLine) : (c.typeRefs ts).InLine :=
  .commaList fun t ht => h.typeRef (ho t ht)

theorem identifier (hn : '\n' ∉ name.toList) : (c.identifier name).InLine := h.resolve hn _ _

theorem typeName {n : NamedType} (hn : '\n' ∉ n.name.toList)
    (hs : ∀ space ∈ n.namespaceName, '\n' ∉ space.toList) : (c.typeName n).InLine := by
  have hfull : '\n' ∉ n.fullName.toList := by
    unfold NamedType.fullName
    split
    · next space hspace =>
      split
      · exact hn
      · simp [hs space hspace, hn]
    · exact hn
  unfold Context.typeName
  split
  · refine h.identifier ?_
    split
    · exact hn
    · exact hfull
  · exact h.identifier hfull

/-- The remark on a gap is in one line. -/
theorem lacking {construct : String} {detail : Option String} (hc : Plain construct)
    (hd : ∀ s ∈ detail, Plain s) : (c.unsupported construct detail).InLine := by
  have hgap : Gap.Plain ⟨c.language, construct, detail⟩ := ⟨hc, hd⟩
  have hmessage : Plain (Gap.message ⟨c.language, construct, detail⟩) := by
    refine hgap.message ?_
    rcases h.language with hl | hl
    · exact hl ▸ .of_chars (by decide)
    · exact hl ▸ .of_chars (by decide)
  have hclosers := Brace.spaceClosers_of_plain (Gap.message ⟨c.language, construct, detail⟩).toList
    fun hm => (hmessage _ hm).1 rfl
  show (c.remark _).InLine
  rw [h.remark, Brace.inlineComment, hclosers, String.ofList_toList]
  simpa using fun hm => (hmessage _ hm).2 rfl

theorem unsupported {construct : List Char}
    (hc : (construct.all fun c => c != '*' && c != '\n') = true) :
    (c.unsupported (String.ofList construct)).InLine :=
  h.lacking (.of_chars hc) nofun

end Context.InLine

/-! ### Shared rules -/

namespace Brace

variable {c : Context}

theorem integerLiteral_inLine {mark? : Nat → Option String}
    (hm : ∀ base, ∀ mark ∈ mark? base, '\n' ∉ mark.toList) (value : Int) (base : Nat) :
    (integerLiteral c mark? value base).InLine := by
  unfold integerLiteral
  split
  · next mark hmark =>
    have hnumeral : ∀ c, isNumeral c = true → c ≠ '\n' := by
      rintro _ hc rfl
      cases hc
    have hmark : ∀ c ∈ mark.toList, c ≠ '\n' := fun c hc he => hm base mark hmark (he ▸ hc)
    exact fun hc => forall_integerText hnumeral hmark value base '\n' hc rfl
  · trivial

theorem floatLiteral_inLine (value : Binary64) : (floatLiteral value).InLine := by
  unfold floatLiteral
  split
  · intro hc
    cases List.all_eq_true.1 (isNumeral_floatText value) _ hc
  · trivial

theorem booleanLiteral_inLine (value : Bool) : (booleanLiteral value).InLine := by
  cases value <;> simp [booleanLiteral]

theorem lineFeed_not_mem_binarySymbol {operator : BinaryOperator} :
    ∀ s ∈ binarySymbol operator, '\n' ∉ s.toList := by
  intro s hs
  cases operator <;> cases hs <;> decide

variable (h : c.InLine)

include h

theorem binary_inLine {symbol : Option String} (hs : ∀ s ∈ symbol, '\n' ∉ s.toList)
    {lhs rhs : Expression} (hl : lhs.outline.InLine) (hr : rhs.outline.InLine)
    (operator : BinaryOperator) : (binary c symbol lhs operator rhs).InLine := by
  cases symbol with
  | none => exact h.lacking (.of_chars rfl) fun _ hs => Option.some.inj hs ▸ plain_name operator
  | some s => simp [binary, h.expression hl, h.expression hr, hs s rfl]

theorem unary_inLine {value : Expression} (hv : value.outline.InLine) (operator : UnaryOperator) :
    (unary c operator value).InLine := by
  have hsymbol : '\n' ∉ (unarySymbol operator).toList := by cases operator <;> decide
  exact ⟨hsymbol, h.expression hv⟩

theorem conditional_inLine {condition ifTrue ifFalse : Expression}
    (hc : condition.outline.InLine) (ht : ifTrue.outline.InLine) (hf : ifFalse.outline.InLine) :
    (conditional c condition ifTrue ifFalse).InLine := by
  simp [conditional, h.expression hc, h.expression ht, h.expression hf]

/-! ### Access and calls -/

theorem site_inLine {value : Option Expression} (hv : ∀ e ∈ value, e.outline.InLine)
    (nullSafe : Bool) : (site c value nullSafe).InLine := by
  refine .whenSome fun e he => ⟨h.expression (hv e he), ?_⟩
  cases nullSafe <;> simp

theorem arguments_inLine {as : List Argument} (ho : ∀ a ∈ as, a.outline.InLine)
    (ht : ∀ s ∈ argumentTexts as, '\n' ∉ s.toList) : (arguments c as).InLine := by
  refine .commaList fun a ha => ⟨.whenSome fun label hlabel => ?_, ?_⟩
  · have hmem : label ∈ argumentTexts as := List.mem_filterMap.2 ⟨a, ha, hlabel⟩
    exact ⟨h.identifier (ht label hmem), by simp⟩
  · have hvalue := ho a ha
    cases a
    exact h.expression hvalue

theorem field_inLine {access : FieldAccess} (ho : access.outline.InLine)
    (ht : '\n' ∉ access.name.toList) : (field c access).InLine := by
  obtain ⟨value, name, nullSafe⟩ := access
  exact ⟨site_inLine h (Outline.all_expression?.1 ho) nullSafe, h.identifier ht⟩

theorem property_inLine {access : PropertyAccess} (ho : access.outline.InLine)
    (ht : '\n' ∉ access.name.toList) (ha : ∀ s ∈ argumentTexts access.arguments, '\n' ∉ s.toList) :
    (property c access).InLine := by
  obtain ⟨value, name, as, nullSafe⟩ := access
  simp only [PropertyAccess.outline, Outline.all_beside, Outline.all_expression?,
    Outline.all_arguments] at ho
  refine ⟨site_inLine h ho.1 nullSafe, ?_⟩
  have hname := h.identifier ht
  have harguments := arguments_inLine h ho.2 ha
  split
  · exact hname
  · simp [hname.when, harguments]

theorem genericArguments_inLine {types : List TypeRef} (ho : ∀ t ∈ types, t.outline.InLine) :
    (genericArguments c types).InLine :=
  .when (by simp [h.typeRefs ho]) _

theorem call_inLine {x : MethodCall} (ho : x.outline.InLine) (ht : '\n' ∉ x.name.toList)
    (ha : ∀ s ∈ argumentTexts x.arguments, '\n' ∉ s.toList) : (call c x).InLine := by
  obtain ⟨value, name, types, as, nullSafe⟩ := x
  simp only [MethodCall.outline, Outline.all_beside, Outline.all_expression?, Outline.all_types,
    Outline.all_arguments] at ho
  have hsite := site_inLine h ho.1 nullSafe
  have hname := h.identifier ht
  have htypes := genericArguments_inLine h ho.2.1
  have harguments := arguments_inLine h ho.2.2 ha
  simp [call, hsite, hname, htypes, harguments]

theorem element_inLine {array : Expression} {indices : List Expression}
    (ha : array.outline.InLine) (hi : ∀ e ∈ indices, e.outline.InLine) :
    (element c array indices).InLine := by
  simp [element, h.expression ha, h.expressions hi]

/-- The entries of a dictionary are in one line if a key and a value make an entry in one line. -/
theorem entries_inLine {keys values : List Expression}
    (ho : (Outline.entries (expressionOutlines keys) (expressionOutlines values)).InLine)
    {entry : Expression → Expression → Doc}
    (hentry : ∀ k v, (c.expression k).InLine → (c.expression v).InLine → (entry k v).InLine) :
    (commaList ((keys.zip values).map fun (k, v) => entry k v)).InLine := by
  obtain ⟨hkeys, hvalues⟩ := Outline.all_entries ho
  rw [expressionOutlines_eq] at hkeys hvalues
  refine .commaList ?_
  rintro ⟨k, v⟩ hpair
  obtain ⟨hk, hv⟩ := List.of_mem_zip hpair
  have hkey := h.expression (hkeys _ (List.mem_map_of_mem hk))
  have hvalue := h.expression (hvalues _ (List.mem_map_of_mem hv))
  exact hentry k v hkey hvalue

end Brace

end SourcePrinter
