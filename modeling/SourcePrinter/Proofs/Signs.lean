import SourcePrinter.Proofs.Openings

/-! Signs before operands. What a part begins with follows its openings from part to part, and so
says whether an operand that stands right behind a sign or a type begins with a sign itself. -/

namespace SourcePrinter

open Doc

/-- The part is an expression or a type. -/
def Part.IsValue : Part → Prop
  | .expression _ | .typeRef _ | .typeRefAs .. => True
  | .parameter _ | .statement _ | .body _ | .member _ | .definition _ => False

namespace Dialect

/-- The text of a part begins with a sign: its own text does, or that of the part that it begins
with. -/
inductive Opens (d : Dialect) (setting : Setting) (sign : Char) : Part → Prop where
  | text {p : Part} {s : String} :
    d.opening setting p = .text s → s.toList.head? = some sign → Opens d setting sign p
  | part {p q : Part} :
    d.opening setting p = .part q → Opens d setting sign q → Opens d setting sign p

variable {d : Dialect} {setting : Setting} {sign : Char} {p q : Part}

theorem not_opens_of_words (h : d.opening setting p = .words) : ¬ d.Opens setting sign p := by
  rintro (⟨hs, -⟩ | ⟨hq, -⟩)
  · rw [h] at hs
    cases hs
  · rw [h] at hq
    cases hq

theorem opens_of_text {s : String} (h : d.opening setting p = .text s) :
    d.Opens setting sign p ↔ s.toList.head? = some sign := by
  refine ⟨?_, .text h⟩
  rintro (⟨hs, hsign⟩ | ⟨hq, -⟩)
  · rw [h] at hs
    cases hs
    exact hsign
  · rw [h] at hq
    cases hq

theorem opens_of_part (h : d.opening setting p = .part q) :
    d.Opens setting sign p ↔ d.Opens setting sign q := by
  refine ⟨?_, .part h⟩
  rintro (⟨hs, -⟩ | ⟨hq, hsign⟩)
  · rw [h] at hs
    cases hs
  · rw [h] at hq
    cases hq
    exact hsign

/-! ### First parts -/

theorem typeOpening_part {form : TypeForm} (h : d.typeOpening setting form = .part q) :
    q.IsValue ∧ q.outline.size ≤ form.size := by
  have htype (t : TypeRef) : (Part.typeRef t).IsValue ∧ (Part.typeRef t).outline.size ≤ t.size :=
    ⟨trivial, Nat.le_of_eq t.size_outline⟩
  cases form with
  | pointer target kind => cases d <;> cases kind <;> cases h <;> exact htype target
  | array element bounds kind =>
    cases d <;> cases h
    exact htype element
  | kindOf target | constant target =>
    cases h
    exact htype target
  | named | predefined | dictionary | tuple | sequence | inlineBlock | range | unknown => cases h

theorem siteOpening_part {site : Option Expression} {o : Opening} (ho : ∀ p, o ≠ .part p)
    (h : siteOpening site o = .part q) : q.IsValue ∧ q.outline.size ≤ sizeExpression? site := by
  cases site with
  | none => exact absurd h (ho q)
  | some e =>
    cases h
    exact ⟨trivial, Nat.le_of_eq e.size_outline⟩

/-- The part that the text of an expression begins with is one of its parts. -/
theorem expressionOpening_part {form : ExpressionForm}
    (h : d.expressionOpening setting form = .part q) :
    q.IsValue ∧ q.outline.size ≤ form.size := by
  have hexpression (e : Expression) {n : Nat} (hn : e.size ≤ n) :
      (Part.expression e).IsValue ∧ (Part.expression e).outline.size ≤ n :=
    ⟨trivial, Nat.le_trans (Nat.le_of_eq e.size_outline) hn⟩
  have htype (t : TypeRef) {n : Nat} (hn : t.size ≤ n) :
      (Part.typeRef t).IsValue ∧ (Part.typeRef t).outline.size ≤ n :=
    ⟨trivial, Nat.le_trans (Nat.le_of_eq t.size_outline) hn⟩
  have htypeAs (k : Nullability) (t : TypeRef) {n : Nat} (hn : t.size ≤ n) :
      (Part.typeRefAs k t).IsValue ∧ (Part.typeRefAs k t).outline.size ≤ n :=
    ⟨trivial, Nat.le_trans (Nat.le_of_eq t.size_outline) hn⟩
  cases form with
  | integer | float =>
    simp only [expressionOpening] at h
    split at h <;> cases h
  | field access =>
    obtain ⟨site, name, nullSafe⟩ := access
    exact siteOpening_part (o := .text _) nofun h
  | property access =>
    obtain ⟨site, name, arguments, nullSafe⟩ := access
    refine (siteOpening_part (fun p => ?_) h).imp_right fun hsite =>
      Nat.le_trans hsite (Nat.le_add_right _ _)
    split <;> nofun
  | call m =>
    obtain ⟨site, name, genericArguments, arguments, nullSafe⟩ := m
    refine (siteOpening_part (o := .text _) nofun h).imp_right fun hsite => ?_
    show _ ≤ sizeExpression? site + sizeTypeRefs genericArguments + sizeArguments arguments
    exact Nat.le_trans hsite (Nat.le_trans (Nat.le_add_right _ _) (Nat.le_add_right _ _))
  | element e indices | typeCheck e type =>
    cases h
    exact hexpression e (Nat.le_add_right _ _)
  | conditional e ifTrue ifFalse =>
    cases h
    refine hexpression e ?_
    show e.size ≤ e.size + ifTrue.size + ifFalse.size
    omega
  | binary lhs operator rhs =>
    simp only [expressionOpening] at h
    split at h <;> cases h
    exact hexpression lhs (Nat.le_add_right _ _)
  | typeReference t =>
    cases h
    exact htype t (Nat.le_refl _)
  | enumValue t value =>
    cases d <;> cases h
    · exact htype t (Nat.le_refl _)
    · exact htypeAs _ t (Nat.le_refl _)
  | newInstance t arguments =>
    cases d <;> cases h
    exact htypeAs _ t (Nat.le_add_right _ _)
  | typeOf t =>
    cases d <;> cases h
    exact htype t (Nat.le_refl _)
  | defaultOf t =>
    obtain ⟨id, form, explicit, implied, isClass, value⟩ := t
    cases d <;> cases value <;> cases h
    refine hexpression _ ?_
    show _ ≤ form.size + Expression.size _ + 1
    omega
  | typeCast cast =>
    obtain ⟨e, type, throws⟩ := cast
    cases d <;> cases throws <;> cases h <;> exact hexpression e (Nat.le_add_right _ _)
  | range start stop inclusive =>
    cases d <;> cases inclusive <;> cases h <;> exact hexpression start (Nat.le_add_right _ _)
  | dereference e =>
    cases d <;> cases h
    exact hexpression e (Nat.le_refl _)
  | identifier | localVariable | raw | unary | nil | boolean | string | character | array
  | dictionary | tuple | selfReference | inherited | result | sizeOf | parentheses | await
  | addressOf | anonymousMethod => cases h

theorem opening_part (h : d.opening setting p = .part q) :
    q.IsValue ∧ q.outline.size < p.outline.size := by
  have htype (t : TypeRef) (h : d.typeOpening setting t.form = .part q) :
      q.IsValue ∧ q.outline.size < t.outline.size := by
    obtain ⟨id, form, explicit, implied, isClass, value⟩ := t
    refine (typeOpening_part h).imp_right fun hsize => ?_
    rw [TypeRef.size_outline]
    show _ < form.size + sizeExpression? value + 1
    exact Nat.lt_succ_of_le (Nat.le_trans hsize (Nat.le_add_right _ _))
  cases p with
  | expression e =>
    obtain ⟨id, form⟩ := e
    refine (expressionOpening_part h).imp_right fun hsize => ?_
    show _ < (Expression.mk id form).outline.size
    rw [Expression.size_outline]
    exact Nat.lt_succ_of_le hsize
  | typeRef t => exact htype t h
  | typeRefAs n t => exact htype t h
  | parameter | statement | body | member | definition => cases h

/-! ### Documents -/

/-- A rule begins with the opening of its part. -/
theorem write_begins {c : Context} (hc : d.Words setting c) (hp : p.IsValue)
    (scope : Option TypeScope) :
    (d.language.write c p).Begins c scope (d.opening setting p) := by
  have htype (t : TypeRef) :
      (d.language.typeRule c t).Begins c scope (d.typeOpening setting t.form) := by
    cases d with
    | csharp => exact CSharp.typeRule_begins hc t
    | swift => exact Swift.typeRule_begins hc t
  cases p with
  | expression e =>
    have hrule : (d.language.expressionRule c e).Begins c scope
        (d.expressionOpening setting e.form) := by
      cases d with
      | csharp => exact CSharp.expressionRule_begins hc e
      | swift => exact Swift.expressionRule_begins hc e
    exact hrule.congr fun _ _ => Iff.rfl
  | typeRef t => exact (htype t).congr fun _ _ => Iff.rfl
  | typeRefAs n t =>
    have hview := htype (t.view n)
    rw [TypeRef.form_view] at hview
    exact hview.congr fun _ _ => Iff.rfl
  | parameter | statement | body | member | definition => exact hp.elim

/-- In a context that reaches a part, the part begins with a sign exactly as its openings say. -/
theorem lead_iff_opens (hsign : IsSign sign) (scope : Option TypeScope) {depth : Nat}
    (hp : p.IsValue) (hdepth : p.outline.size ≤ depth) :
    (p.doc (d.language.context setting depth)).lead scope = some sign ↔
      d.Opens setting sign p := by
  -- On the depth, which the part that the text begins with takes less of.
  induction depth generalizing p with
  | zero => exact absurd hdepth (Nat.not_le_of_gt p.size_pos)
  | succ depth ih =>
    have hbegins := write_begins (d.context_words setting depth) hp scope
    rw [d.language.doc_context_succ]
    cases ho : d.opening setting p with
    | words =>
      rw [ho] at hbegins
      exact iff_of_false (hbegins sign hsign) (not_opens_of_words ho)
    | text s =>
      rw [ho] at hbegins
      exact (hbegins sign hsign).trans (opens_of_text ho).symm
    | part q =>
      rw [ho] at hbegins
      obtain ⟨hq, hsize⟩ := opening_part ho
      exact ((hbegins sign hsign).trans (ih hq (by omega))).trans (opens_of_part ho).symm

end Dialect

/-! ### Runs -/

namespace Doc

variable {options : Options} {x y : Doc} {s : String} {key : NodeKey} {column : Nat}
variable {p q : Pass} {f : Forest Visited}

theorem Runs.of_node (h : Runs options (.node key x) column p f q) : ∃ r g t,
    r.writer = p.writer ∧ Runs options x column r g t ∧ t.writer = q.writer := by
  cases h with
  | node _ _ h | unseen _ h => exact ⟨(p.enter key).2, _, _, rfl, h, rfl⟩

/-- Words stand behind the indentation that is due. -/
theorem Runs.of_text (h : Runs options (.text s) column p f q) (hs : '\n' ∉ s.toList)
    (hne : s.toList ≠ []) :
    q.writer.text.toList = p.writer.text.toList ++ p.writer.due ++ s.toList ∧
      q.writer.atLineStart = false := by
  cases h with
  | text =>
    exact ⟨Writer.writeChars_text hs hne,
      (p.writer.writeChars_lays s.toList).2.trans (endsLine_of_line _ hs hne)⟩

/-- What follows words stands in the middle of a line. -/
theorem Runs.after_words (h : Runs options (.text s ++ x) column p f q) (hs : '\n' ∉ s.toList)
    (hne : s.toList ≠ []) : ∃ r g, Runs options x column r g q ∧
      r.writer.text.toList = p.writer.text.toList ++ p.writer.due ++ s.toList ∧
      r.writer.atLineStart = false := by
  obtain ⟨r, _, g, hwords, hx⟩ := h.split
  exact ⟨r, g, hx, hwords.of_text hs hne⟩

end Doc

namespace Dialect

variable (d : Dialect) {options : Options} {setting : Setting} {e : Expression} {column : Nat}
variable {p q : Pass} {f : Forest Visited} {sign : Char}

/-- In the middle of a line an expression begins with a sign exactly as its openings say. -/
theorem expression_head? (h : Runs options (d.language.expressionDoc setting e) column p f q)
    (hp : p.writer.atLineStart = false) (hsign : IsSign sign) {added : List Char}
    (ht : q.writer.text.toList = p.writer.text.toList ++ added) :
    added.head? = some sign ↔ d.Opens setting sign (.expression e) := by
  have hneat : (d.language.expressionDoc setting e).Neat False :=
    d.composes.context_neat setting e.size (.expression e) False
  have hvalue : (Part.expression e).IsValue := trivial
  have hopens : (d.language.expressionDoc setting e).lead p.scope = some sign ↔
      d.Opens setting sign (.expression e) :=
    lead_iff_opens hsign p.scope hvalue (Nat.le_of_eq e.size_outline)
  rw [← hopens, ← leadOf_eq_some hsign.isBlank_eq_false, h.leadOf_added hneat hp ht]

/-- An operand in parentheses unless it is a literal or a name begins with a sign only if it has no
parentheses. -/
theorem operand_head?
    (h : Runs options
      (if e.isLeaf then d.language.expressionDoc setting e
        else text "(" ++ d.language.expressionDoc setting e ++ text ")") column p f q)
    (hp : p.writer.atLineStart = false) (hsign : IsSign sign) {added : List Char}
    (ht : q.writer.text.toList = p.writer.text.toList ++ added) :
    added.head? = some sign ↔ e.isLeaf ∧ d.Opens setting sign (.expression e) := by
  cases hleaf : e.isLeaf with
  | true =>
    rw [hleaf] at h
    rw [d.expression_head? h hp hsign ht]
    simp
  | false =>
    rw [hleaf] at h
    have hneat : (text "(" ++ d.language.expressionDoc setting e ++ text ")").Neat False :=
      ⟨⟨trivial, d.composes.context_neat setting e.size (.expression e) False⟩, trivial⟩
    have hlead : leadOf added = some '(' := h.leadOf_added hneat hp ht
    rw [← leadOf_eq_some hsign.isBlank_eq_false, hlead]
    refine iff_of_false ?_ fun h => Bool.false_ne_true h.1
    rcases hsign with rfl | rfl <;> decide

end Dialect

/-- The sign that a unary operator is written as. -/
def UnaryOperator.sign? : UnaryOperator → Option Char
  | .plus => some '+'
  | .minus => some '-'
  | .not | .bitwiseNot => none

theorem UnaryOperator.sign?_eq_some {operator : UnaryOperator} {sign : Char}
    (h : operator.sign? = some sign) :
    IsSign sign ∧ (Brace.unarySymbol operator).toList = [sign] := by
  cases operator <;> cases h <;> decide

/-- Every run of a document adds a text behind the indentation that is due, with a property of it
and of the text before it. -/
def Doc.AlwaysAdds (options : Options) (d : Doc) (property : List Char → List Char → Prop) : Prop :=
  ∀ column p f q, Runs options d column p f q → ∃ text,
    q.writer.text.toList = p.writer.text.toList ++ p.writer.due ++ text ∧
      property (p.writer.text.toList ++ p.writer.due) text

namespace Dialect

variable {options : Options} {setting : Setting} {e : Expression}

theorem unary_adds (d : Dialect) (id : NodeId) {operator : UnaryOperator} {sign : Char}
    (h : operator.sign? = some sign) :
    (d.language.expressionDoc setting ⟨id, .unary operator e⟩).AlwaysAdds options fun _ text =>
      [sign, sign] <+: text ↔ d.Opens setting sign (.expression e) := by
  obtain ⟨hsign, hsymbol⟩ := UnaryOperator.sign?_eq_some h
  have hdoc : d.language.expressionDoc setting ⟨id, .unary operator e⟩ =
      node ⟨.expression, id⟩
        (text (Brace.unarySymbol operator) ++ d.language.expressionDoc setting e) := by
    cases d <;> rfl
  rw [hdoc]
  intro column p f q hruns
  obtain ⟨p', _, q', hp, hruns, hq⟩ := hruns.of_node
  have hline : '\n' ∉ (Brace.unarySymbol operator).toList := by cases operator <;> decide
  obtain ⟨r, g, hoperand, hr, hbegun⟩ := hruns.after_words hline (by simp [hsymbol])
  obtain ⟨operand, hgrows⟩ := hoperand.grows
  refine ⟨sign :: operand, ?_, ?_⟩
  · rw [← hq, hgrows.text, hr, hp, hsymbol, List.append_assoc _ [sign]]
    rfl
  · show [sign, sign] <+: sign :: operand ↔ _
    rw [List.cons_prefix_cons, singleton_prefix, eq_self, true_and]
    exact d.expression_head? hoperand hbegun hsign hgrows.text

/-- The operand of a cast that throws stands behind the type, in parentheses unless it is a literal
or a name. -/
theorem throwingCast_adds (id : NodeId) (t : TypeRef) :
    (Language.csharp.expressionDoc setting ⟨id, .typeCast ⟨e, t, true⟩⟩).AlwaysAdds options
      fun before text => ∃ type blank operand,
        text = "(".toList ++ type ++ blank ++ ")".toList ++ operand ∧
        (Language.csharp.typeDoc setting t).Writes options (before ++ "(".toList) type ∧
        (∀ c ∈ blank, c = ' ' ∨ c = '\t') ∧
        ∀ sign, IsSign sign → (operand.head? = some sign ↔
          e.isLeaf ∧ Dialect.csharp.Opens setting sign (.expression e)) := by
  have hvalue : (Language.csharp.context setting (e.size + t.size)).expression e =
      Language.csharp.expressionDoc setting e :=
    Language.csharp_composes.expression_context setting (Nat.le_add_right _ _)
  have htarget : (Language.csharp.context setting (e.size + t.size)).typeRef t =
      Language.csharp.typeDoc setting t :=
    Language.csharp_composes.typeRef_context setting (Nat.le_add_left _ _)
  have hdoc : Language.csharp.expressionDoc setting ⟨id, .typeCast ⟨e, t, true⟩⟩ =
      node ⟨.expression, id⟩ (text "(" ++ Language.csharp.typeDoc setting t ++ text ")" ++
        if e.isLeaf then Language.csharp.expressionDoc setting e
        else text "(" ++ Language.csharp.expressionDoc setting e ++ text ")") := by
    rw [← hvalue, ← htarget]
    rfl
  rw [hdoc]
  intro column p f q hruns
  obtain ⟨p', _, q', hp, hruns, hq⟩ := hruns.of_node
  obtain ⟨behind, _, _, hhead, hoperand⟩ := hruns.split
  obtain ⟨typed, _, _, htyped, hclose⟩ := hhead.split
  obtain ⟨opened, _, hruns, hopened, -⟩ := htyped.after_words (by decide) (by decide)
  obtain ⟨hclosed, hbegun⟩ := hclose.of_text (by decide) (by decide)
  obtain ⟨type, htype⟩ := hruns.grows
  obtain ⟨operand, hgrows⟩ := hoperand.grows
  rw [hp] at hopened
  refine ⟨_, ?_, type, typed.writer.due, operand, rfl, ⟨_, _, _, _, hruns, hopened, ?_⟩, ?_, ?_⟩
  · rw [← hq, hgrows.text, hclosed, htype.text, hopened]
    simp only [List.append_assoc]
  · rw [htype.text, hopened]
  · exact typed.writer.due_blank
  · intro sign hsign
    exact Dialect.csharp.operand_head? hoperand hbegun hsign hgrows.text

/-- The step of a loop that counts backwards is a minus and the operand, in parentheses unless it is
a literal or a name. -/
theorem backwardStep_prefix (d : Dialect) {column : Nat} {p q : Pass} {f : Forest Visited}
    (h : Runs options (Swift.backwardStep (d.language.context setting e.size) (some e))
      column p f q) (hp : p.writer.atLineStart = false) {step : List Char}
    (ht : q.writer.text.toList = p.writer.text.toList ++ step) :
    ['-', '-'] <+: step ↔ e.isLeaf ∧ d.Opens setting '-' (.expression e) := by
  have hdue : p.writer.due = [] := Writer.due_of_begun hp
  have hdoc : Swift.backwardStep (d.language.context setting e.size) (some e) =
      if e.isLeaf then text "-" ++ d.language.expressionDoc setting e
      else text "-(" ++ d.language.expressionDoc setting e ++ text ")" := rfl
  rw [hdoc] at h
  cases hleaf : e.isLeaf with
  | true =>
    rw [hleaf, if_pos rfl] at h
    obtain ⟨r, _, hoperand, hr, hbegun⟩ := h.after_words (by decide) (by decide)
    obtain ⟨operand, hgrows⟩ := hoperand.grows
    have hstep : step = '-' :: operand := by
      rw [hgrows.text, hr, hdue, List.append_nil, List.append_assoc] at ht
      exact (List.append_cancel_left ht).symm
    rw [hstep, List.cons_prefix_cons, singleton_prefix,
      d.expression_head? hoperand hbegun (.inr rfl) hgrows.text]
    simp
  | false =>
    rw [hleaf, if_neg Bool.false_ne_true] at h
    obtain ⟨s, _, close, hopened, hclosed⟩ := h.init
    obtain ⟨r, _, hoperand, hr, -⟩ := hopened.after_words (by decide) (by decide)
    obtain ⟨operand, hgrows⟩ := hoperand.grows
    have hstep : step = '-' :: '(' :: (operand ++ close) := by
      rw [hclosed, hgrows.text, hr, hdue, List.append_nil, List.append_assoc,
        List.append_assoc] at ht
      exact (List.append_cancel_left ht).symm
    rw [hstep]
    simp

/-- What a loop that counts backwards writes for its values has the step between words and a
parenthesis. -/
theorem backwardValues_adds (d : Dialect) {loop : CountingLoop} {c : Context}
    (hc : Swift.backwardStep c (some e) =
      Swift.backwardStep (d.language.context setting e.size) (some e))
    (hdirection : loop.direction = .backward) (hstep : loop.step = some e)
    {column : Nat} {p q : Pass} {f : Forest Visited}
    (h : Runs options (Swift.countedValues c loop) column p f q) : ∃ a step b,
      q.writer.text.toList = p.writer.text.toList ++ a ++ ", by: ".toList ++ step ++ b ∧
      (Swift.backwardStep (d.language.context setting e.size) (some e)).Writes options
        (p.writer.text.toList ++ a ++ ", by: ".toList) step ∧
      (['-', '-'] <+: step ↔ e.isLeaf ∧ d.Opens setting '-' (.expression e)) := by
  have hdoc : Swift.countedValues c loop =
      text "stride(from: " ++ c.expression loop.start ++ text ", through: " ++
        c.expression loop.stop ++ text ", by: " ++
        Swift.backwardStep (d.language.context setting e.size) (some e) ++ text ")" := by
    rw [← hc, Swift.countedValues, hdirection, hstep]
  rw [hdoc] at h
  obtain ⟨stepped, _, close, h, hclose⟩ := h.init
  obtain ⟨behind, _, _, h, hruns⟩ := h.split
  obtain ⟨before, _, _, hbounds, hby⟩ := h.split
  obtain ⟨bounds, hbounds⟩ := hbounds.grows
  obtain ⟨hby, hbegun⟩ := hby.of_text (by decide) (by decide)
  obtain ⟨step, hgrows⟩ := hruns.grows
  have hbehind : behind.writer.text.toList =
      p.writer.text.toList ++ (bounds ++ before.writer.due) ++ ", by: ".toList := by
    rw [hby, hbounds.text, List.append_assoc _ bounds]
  refine ⟨_, step, close, ?_, ⟨_, _, _, _, hruns, hbehind, ?_⟩, ?_⟩
  · rw [hclose, hgrows.text, hbehind]
  · rw [hgrows.text, hbehind]
  · exact d.backwardStep_prefix hruns hbegun hgrows.text

theorem backwardLoop_adds (lowercaseCases : Bool) (id : NodeId) {loop : CountingLoop}
    (hdirection : loop.direction = .backward) (hstep : loop.step = some e) :
    ((Language.swift lowercaseCases).statementDoc setting ⟨id, .forTo loop⟩).AlwaysAdds options
      fun before text => ∃ a step b, text = a ++ ", by: ".toList ++ step ++ b ∧
        (Swift.backwardStep ((Language.swift lowercaseCases).context setting e.size)
          (some e)).Writes options (before ++ a ++ ", by: ".toList) step ∧
        (['-', '-'] <+: step ↔
          e.isLeaf ∧ (Dialect.swift lowercaseCases).Opens setting '-' (.expression e)) := by
  have hsize : e.size ≤ loop.size := by
    obtain ⟨counter, type, start, stop, step, direction, body⟩ := loop
    cases hstep
    show e.size ≤ sizeTypeRef? type + start.size + stop.size + e.size + body.size
    omega
  -- The step is smaller than the loop, so both contexts have the same document for it.
  have hvalue : ((Language.swift lowercaseCases).context setting loop.size).expression e =
      ((Language.swift lowercaseCases).context setting e.size).expression e :=
    (Language.swift_composes lowercaseCases).expression_context setting hsize
  have hstepped :
      Swift.backwardStep ((Language.swift lowercaseCases).context setting loop.size) (some e) =
        Swift.backwardStep ((Language.swift lowercaseCases).context setting e.size) (some e) := by
    simp only [Swift.backwardStep, hvalue]
  have hdoc : (Language.swift lowercaseCases).statementDoc setting ⟨id, .forTo loop⟩ =
      node ⟨.statement, id⟩ (text "for " ++
        ((Language.swift lowercaseCases).context setting loop.size).identifier loop.counter ++
        text " in " ++
        Swift.countedValues ((Language.swift lowercaseCases).context setting loop.size) loop ++
        Swift.openBody ((Language.swift lowercaseCases).context setting loop.size) loop.body) ++
      lineStart := rfl
  rw [hdoc]
  -- The run is taken apart down to the values that are counted, and their text put in its place.
  intro column p f q hruns
  obtain ⟨ended, _, last, hnode, hend⟩ := hruns.init
  obtain ⟨p', _, q', hp, hloop, hq⟩ := hnode.of_node
  obtain ⟨behind, _, body, hhead, hbody⟩ := hloop.init
  obtain ⟨counted, _, _, hcounter, hvalues⟩ := hhead.split
  obtain ⟨named, _, words, hfor, hin⟩ := hcounter.init
  obtain ⟨opened, _, hname, hopened, -⟩ := hfor.after_words (by decide) (by decide)
  obtain ⟨a, step, b, htext, hwrites, hsigns⟩ :=
    (Dialect.swift lowercaseCases).backwardValues_adds hstepped hdirection hstep hvalues
  obtain ⟨name, hname⟩ := hname.grows
  have hcounted : counted.writer.text.toList =
      p.writer.text.toList ++ p.writer.due ++ ("for ".toList ++ name ++ words) := by
    rw [hin, hname.text, hopened, hp]
    simp only [List.append_assoc]
  rw [hcounted, List.append_assoc _ _ a] at htext hwrites
  refine ⟨_, ?_, _, step, b ++ body ++ last, rfl, hwrites, hsigns⟩
  rw [hend, ← hq, hbody, htext]
  simp only [List.append_assoc]

/-- A sign meets another exactly where an operand without parentheses begins with one: any operand
of a unary operator, and a literal or a name as the step of a loop that counts backwards or as the
operand of a cast that throws. -/
theorem signs_meet_iff (options : Options) (setting : Setting) (id : NodeId) (e : Expression) :
    (∀ d : Dialect,
      (d.language.expressionDoc setting ⟨id, .unary .minus e⟩).AlwaysAdds options
        (fun _ text => ['-', '-'] <+: text ↔ d.Opens setting '-' (.expression e)) ∧
      (d.language.expressionDoc setting ⟨id, .unary .plus e⟩).AlwaysAdds options
        (fun _ text => ['+', '+'] <+: text ↔ d.Opens setting '+' (.expression e))) ∧
    (∀ lowercaseCases counter type start stop body,
      ((Language.swift lowercaseCases).statementDoc setting
        ⟨id, .forTo ⟨counter, type, start, stop, some e, .backward, body⟩⟩).AlwaysAdds options
        fun before text => ∃ a step b, text = a ++ ", by: ".toList ++ step ++ b ∧
          (Swift.backwardStep ((Language.swift lowercaseCases).context setting e.size)
            (some e)).Writes options (before ++ a ++ ", by: ".toList) step ∧
          (['-', '-'] <+: step ↔
            e.isLeaf ∧ (Dialect.swift lowercaseCases).Opens setting '-' (.expression e))) ∧
    ∀ t, (Language.csharp.expressionDoc setting ⟨id, .typeCast ⟨e, t, true⟩⟩).AlwaysAdds options
      fun before text => ∃ type blank operand,
        text = "(".toList ++ type ++ blank ++ ")".toList ++ operand ∧
        (Language.csharp.typeDoc setting t).Writes options (before ++ "(".toList) type ∧
        (∀ c ∈ blank, c = ' ' ∨ c = '\t') ∧
        ∀ sign, IsSign sign → (operand.head? = some sign ↔
          e.isLeaf ∧ Dialect.csharp.Opens setting sign (.expression e)) :=
  ⟨fun d => ⟨d.unary_adds id rfl, d.unary_adds id rfl⟩,
    fun lowercaseCases _ _ _ _ _ => backwardLoop_adds lowercaseCases id rfl rfl,
    throwingCast_adds id⟩

end Dialect

/-- A number below zero. -/
def Expression.minusFive : Expression := ⟨1, .integer (-5) 10⟩

def Expression.negation : Expression := ⟨2, .unary .minus minusFive⟩

def Expression.narrowing : Expression :=
  ⟨2, .typeCast ⟨minusFive, ⟨3, .predefined .int32, .default, .default, false, none⟩, true⟩⟩

/-- The negation of the number in parentheses. -/
def Expression.partedNegation : Expression := ⟨3, .unary .minus ⟨2, .parentheses minusFive⟩⟩

/-- A loop that counts backwards in steps of the number. -/
def Statement.countdown : Statement :=
  ⟨2, .forTo ⟨"i", none, ⟨3, .integer 0 10⟩, ⟨4, .integer 9 10⟩, some .minusFive, .backward,
    ⟨5, .block []⟩⟩⟩

theorem Expression.partedNegation_meets_no_sign : ∃ out,
    (Language.csharp.expressionDoc (.of .initial none false) partedNegation).render .initial =
      .ok out ∧ ¬ ['-', '-'] <+: out.text.toList := by
  obtain ⟨out, hout⟩ : ∃ out, (Language.csharp.expressionDoc (.of .initial none false)
      partedNegation).render .initial = .ok out := ⟨_, rfl⟩
  obtain ⟨f, q, hruns, rfl⟩ := runs_of_render hout
  obtain ⟨hunary, -, -⟩ := Dialect.signs_meet_iff .initial (.of .initial none false) 3
    ⟨2, .parentheses minusFive⟩
  obtain ⟨text, htext, hmeets⟩ := (hunary .csharp).1 0 _ f q hruns
  refine ⟨_, hout, fun hprefix => ?_⟩
  rw [htext] at hprefix
  exact Dialect.not_opens_of_words rfl (hmeets.1 hprefix)

/-- A number below zero has no parentheses behind a sign, in a step or in a cast. -/
theorem Expression.minusFive_meets_signs :
    (∀ d : Dialect, ∃ out,
      (d.language.expressionDoc (.of .initial none false) negation).render .initial = .ok out ∧
        out.text = "--5") ∧
    (∃ out,
      ((Language.swift true).statementDoc (.of .initial none false) .countdown).render .initial =
        .ok out ∧ out.text = "for i in stride(from: 0, through: 9, by: --5) \x7b\n\x7d\n") ∧
    ∃ out,
      (Language.csharp.expressionDoc (.of .initial none false) narrowing).render .initial =
        .ok out ∧ out.text = "(int)-5" := by
  refine ⟨fun d => ?_, ⟨_, rfl, by decide +kernel⟩, _, rfl, by decide +kernel⟩
  cases d with
  | csharp => exact ⟨_, rfl, by decide +kernel⟩
  | swift lowercaseCases => cases lowercaseCases <;> exact ⟨_, rfl, by decide +kernel⟩

end SourcePrinter
