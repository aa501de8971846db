import SourcePrinter.Proofs.Rules.Brace
import SourcePrinter.Proofs.Rules.Plain
import SourcePrinter.Language.Swift

/-! The rules of Swift put their documents together from the parts of what they write. Only the
faults of every language are faults here. -/

namespace SourcePrinter

namespace Swift

open Doc

/-- The faults of the nodes of a tree in Swift. -/
abbrev faults : Faults := .of Node.fault?

section

variable {whole : Prop} {c alt : Context} {n : Node} {lowercaseCases : Bool}

theorem braces_composed {d d' : Doc} {o : Outline}
    (h : Composed hooks faults whole c alt n d d' o) :
    Composed hooks faults whole c alt n (braces d) (braces d') o :=
  .text (.after_line (.nested h))

/-! ### Types -/

theorem optionalMark_wordy (t : TypeRef) : (optionalMark t).Wordy := by
  unfold optionalMark
  split <;> trivial

theorem resultType_composed (t : Option TypeRef) :
    Composed hooks faults whole c alt n (resultType c t) (resultType (c.refill alt) t)
      (typeOutline? t) := by
  cases t with
  | none => exact .wordy (wordy_text _)
  | some result =>
    refine .ite (fun _ => .words (wordy_text _) ?_) fun _ => .typeRef result
    exact fun _ => Outline.own_typeRef result

theorem returnClause_composed (t : Option TypeRef) :
    Composed hooks faults whole c alt n (returnClause c t) (returnClause (c.refill alt) t)
      (typeOutline? t) := by
  refine .typeRef? (fun result => .when (.after_text (.typeRef result)) fun _ _ => ?_) t
  exact Outline.own_typeRef result

theorem functionType_composed (block : InlineBlock) :
    Composed hooks faults whole c alt n (functionType c block) (functionType (c.refill alt) block)
      block.outline := by
  obtain ⟨parameters, returnType, kind⟩ := block
  exact .beside (.text (.after_text (.typeRefs parameters))) (resultType_composed returnType)

theorem typeRule_composed (h : c.Speaks (.swift lowercaseCases)) (t : TypeRef) :
    Composed hooks faults whole c alt n ((Language.swift lowercaseCases).typeRule c t)
      ((Language.swift lowercaseCases).typeRule (c.refill alt) t) t.form.outline := by
  obtain ⟨id, form, explicit, implied, isClass, defaultValue⟩ := t
  cases form with
  | named type =>
    obtain ⟨name, namespaceName, arguments⟩ := type
    exact .before_words (.after_words (c.wordy_typeName _)
      (Brace.genericArguments_composed arguments)) (optionalMark_wordy _)
  | predefined type =>
    exact .before_words (.wordy (wordy_text _)) (wordy_when (optionalMark_wordy _) _)
  | pointer target kind =>
    cases kind with
    | pointer => exact .before_words (.text (.after_text (.typeRef target))) (optionalMark_wordy _)
    | reference => exact .typeRef target
  | array element bounds kind =>
    exact .before_words (.text (.after_text (.typeRef element))) (optionalMark_wordy _)
  | dictionary key value =>
    refine .before_words (.text (.beside ?_ (.typeRef value))) (optionalMark_wordy _)
    exact .text (.after_text (.typeRef key))
  | tuple members =>
    exact .before_words (.text (.after_text (.typeRefs members))) (optionalMark_wordy _)
  | sequence element =>
    exact .before_words (.text (.after_text (.typeRef element))) (optionalMark_wordy _)
  | kindOf target | constant target => exact .typeRef target
  | inlineBlock block =>
    refine .ite (fun _ => ?_) fun _ => functionType_composed block
    exact .before_words (.text (.after_text (functionType_composed block))) (optionalMark_wordy _)
  | range start stop => exact .unsupported h (by decide)
  | unknown => exact .wordy (wordy_text _)

/-! ### Expressions -/

theorem array_composed (elements : List Expression) (elementType : Option TypeRef) :
    Composed hooks faults whole c alt n (array c elements elementType)
      (array (c.refill alt) elements elementType)
      (.beside (typeOutline? elementType) (.inOrder (expressionOutlines elements))) := by
  have hlist : Composed hooks faults whole c alt n
      (Doc.text "[" ++ c.expressions elements ++ Doc.text "]")
      (Doc.text "[" ++ (c.refill alt).expressions elements ++ Doc.text "]")
      (.beside (typeOutline? elementType) (.inOrder (expressionOutlines elements))) :=
    .right (.text (.after_text (.expressions elements))) fun _ => Outline.own_typeRef? elementType
  cases elements with
  | nil =>
    cases elementType with
    | none => exact hlist
    | some t => exact .left (.text (.after_text (.typeRef t))) fun _ => rfl
  | cons e more => exact hlist

theorem dictionary_composed (d : DictionaryLiteral) (hl : d.keys.length = d.values.length) :
    Composed hooks faults whole c alt n (dictionary c d) (dictionary (c.refill alt) d)
      d.outline := by
  obtain ⟨keys, values, keyType, valueType⟩ := d
  refine .right (.right ?_ fun _ => Outline.own_typeRef? valueType) fun _ =>
    Outline.own_typeRef? keyType
  cases keys with
  | nil =>
    cases values with
    | nil => exact .wordy (wordy_text _)
    | cons => cases hl
  | cons k ks =>
    refine .text (.after_text (Brace.entries_composed (fun k v => ?_) hl))
    exact .beside (.text (.expression k)) (.expression v)

/-- The default value that a type carries takes the place of the type. -/
theorem defaultOf_composed (h : c.Speaks (.swift lowercaseCases)) (t : TypeRef) :
    Composed hooks faults whole c alt n (defaultOf c t) (defaultOf (c.refill alt) t) t.outline := by
  rw [t.outline_eq]
  unfold defaultOf
  split
  · next value hv =>
    rw [hv]
    exact .carried rfl
  · exact .unsupported_detail h (by decide) (.of_chars (by decide))

theorem expression_composed (h : c.Speaks (.swift lowercaseCases)) (e : Expression) :
    Composed hooks faults whole c alt (.expression e)
      ((Language.swift lowercaseCases).expressionRule c e)
      ((Language.swift lowercaseCases).expressionRule (c.refill alt) e) e.form.outline := by
  obtain ⟨id, form⟩ := e
  cases form with
  | nil | boolean | string | character | selfReference | inherited | identifier | localVariable
  | raw => exact .wordy (wordy_text _)
  | integer value base =>
    refine .ite (fun hb => Brace.integerLiteral_composed fun hm => ?_) fun hb => .fault (if_neg hb)
    rcases hb with rfl | rfl | rfl | rfl <;> cases hm
  | float value => exact Brace.floatLiteral_composed fun hv => if_neg (by simp [hv])
  | array elements elementType => exact array_composed elements elementType
  | dictionary literal =>
    exact .ite (fun hl => dictionary_composed literal hl) fun hl => .fault (if_neg hl)
  | tuple members => exact .text (.after_text (.expressions members))
  | result => exact .unsupported h (by decide)
  | field access => exact Brace.field_composed access
  | property access => exact Brace.property_composed access
  | call x => exact Brace.call_composed x
  | newInstance type arguments =>
    exact .text (.beside (.text (.typeRefAs _ type)) (Brace.arguments_composed arguments))
  | element array indices => exact Brace.element_composed array indices
  | enumValue type value => exact .text (.text (.typeRefAs _ type))
  | typeReference type => exact .typeRef type
  | typeOf type => exact .text (.typeRef type)
  | sizeOf type => exact .text (.after_text (.typeRef type))
  | defaultOf type => exact defaultOf_composed h type
  | typeCheck value type => exact .beside (.text (.expression value)) (.typeRefAs _ type)
  | typeCast cast =>
    obtain ⟨value, type, throws⟩ := cast
    exact .beside (.text (.expression value)) (.typeRefAs _ type)
  | binary lhs operator rhs => exact Brace.binary_composed h _ lhs rhs operator
  | unary operator value => exact Brace.unary_composed operator value
  | conditional condition ifTrue ifFalse =>
    exact Brace.conditional_composed condition ifTrue ifFalse
  | parentheses inner => exact .text (.after_text (.expression inner))
  | await inner | addressOf inner => exact .after_text (.expression inner)
  | dereference inner => exact .text (.expression inner)
  | range start stop inclusive => exact .beside (.text (.expression start)) (.expression stop)
  | anonymousMethod method =>
    obtain ⟨parameters, returnType, statements⟩ := method
    refine .assoc (.text (.beside (.line (.beside ?_ (returnClause_composed returnType)))
      (.nested (.statements statements))))
    exact .after_text (Brace.parameterList_composed parameters)

/-! ### Statements -/

theorem openStatements_composed (ss : List Statement) :
    Composed hooks faults whole c alt n (openStatements c ss) (openStatements (c.refill alt) ss)
      (.inOrder (statementOutlines ss)) :=
  braces_composed (.statements ss)

theorem openBody_composed (s : Statement) :
    Composed hooks faults whole c alt n (openBody c s) (openBody (c.refill alt) s) s.outline :=
  braces_composed (.body s)

theorem typeAndValue_composed (t : Option TypeRef) (value : Option Expression) :
    Composed hooks faults whole c alt n (typeAndValue c t value)
      (typeAndValue (c.refill alt) t value)
      (.beside (typeOutline? t) (expressionOutline? value)) :=
  .beside (.typeRef? (fun t => .after_text (.typeRef t)) t)
    (.expression? (fun e => .after_text (.expression e)) value)

theorem conditionalStatement_composed (condition : Expression) (thenBranch : Statement)
    (elseBranch : Option Statement) :
    Composed hooks faults whole c alt n (conditionalStatement c condition thenBranch elseBranch)
      (conditionalStatement (c.refill alt) condition thenBranch elseBranch)
      (.beside condition.outline
        (.beside thenBranch.outline (statementOutline? elseBranch))) := by
  refine .assoc (.beside (.beside (.after_text (.expression condition))
    (openBody_composed thenBranch)) (.statement? (fun other => ?_) elseBranch))
  exact .ite (fun _ => .after_text (.statement other)) fun _ =>
    .after_text (openBody_composed other)

theorem backwardStep_composed (step : Option Expression) :
    Composed hooks faults whole c alt n (backwardStep c step) (backwardStep (c.refill alt) step)
      (expressionOutline? step) := by
  cases step with
  | none => exact .wordy (wordy_text _)
  | some e =>
    exact .ite (fun _ => .after_text (.expression e)) fun _ =>
      .text (.after_text (.expression e))

/-- The bounds and the step, whether they make a range or a stride. -/
theorem countedValues_composed (l : CountingLoop) :
    Composed hooks faults whole c alt n (countedValues c l) (countedValues (c.refill alt) l)
      (.beside l.start.outline (.beside l.stop.outline (expressionOutline? l.step))) := by
  obtain ⟨counter, type, start, stop, step, direction, body⟩ := l
  have hstride : ∀ {d d' : Doc}, Composed hooks faults whole c alt n d d'
      (expressionOutline? step) → Composed hooks faults whole c alt n
      (Doc.text "stride(from: " ++ c.expression start ++ Doc.text ", through: " ++
        c.expression stop ++ Doc.text ", by: " ++ d ++ Doc.text ")")
      (Doc.text "stride(from: " ++ alt.expression start ++ Doc.text ", through: " ++
        alt.expression stop ++ Doc.text ", by: " ++ d' ++ Doc.text ")")
      (.beside start.outline (.beside stop.outline (expressionOutline? step))) := by
    intro d d' hd
    refine .text (.assoc (.beside (.text (.beside ?_ (.expression stop))) hd))
    exact .text (.after_text (.expression start))
  cases direction with
  | forward =>
    cases step with
    | none => exact .beside (.text (.expression start)) (.left (.expression stop) fun _ => rfl)
    | some step => exact hstride (.expression step)
  | backward => exact hstride (backwardStep_composed step)

theorem forTo_composed (l : CountingLoop) :
    Composed hooks faults whole c alt n (forTo c l) (forTo (c.refill alt) l) l.outline := by
  obtain ⟨counter, type, start, stop, step, direction, body⟩ := l
  refine .right ?_ fun _ => Outline.own_typeRef? type
  refine .equal (.trans (.assoc ..) (.beside (.refl _) (.assoc ..)))
    (.beside ?_ (openBody_composed body))
  have hwords : (Doc.text "for " ++ c.identifier counter ++ Doc.text " in ").Wordy :=
    ⟨⟨trivial, trivial⟩, trivial⟩
  exact .after_words hwords (countedValues_composed ⟨counter, type, start, stop, step, _, body⟩)

theorem forEach_composed (l : CollectionLoop) :
    Composed hooks faults whole c alt n (forEach c l) (forEach (c.refill alt) l) l.outline := by
  obtain ⟨element, type, collection, body⟩ := l
  have hwords : (Doc.text "for " ++ c.identifier element).Wordy := ⟨trivial, trivial⟩
  refine .assoc (.beside (.beside (.text (.after_words hwords (.typeRef? (fun t => ?_) type)))
    (.expression collection)) (openBody_composed body))
  exact .after_text (.typeRef t)

theorem caseBody_composed (ss : List Statement) :
    Composed hooks faults whole c alt n (caseBody c ss) (caseBody (c.refill alt) ss)
      (.inOrder (statementOutlines ss)) :=
  .nested (.before_words (.statements ss) (wordy_when (wordy_line _) _))

theorem switch_composed (value : Expression) (cases : List SwitchCase)
    (default : Option (List Statement)) :
    Composed hooks faults whole c alt n (switch c value cases default)
      (switch (c.refill alt) value cases default)
      (.beside value.outline (.beside (.inOrder (caseOutlines cases))
        (.inOrder (statementOutlines? default)))) := by
  refine .text (.assoc (.beside (.beside (.line (.after_text (.expression value))) ?_) ?_))
  · rw [caseOutlines_eq]
    refine .concat (fun s => ?_) cases
    obtain ⟨labels, statements⟩ := s
    exact .beside (.line (.after_text (.expressions labels))) (caseBody_composed statements)
  · exact .statements? (fun ss => .after_line (caseBody_composed ss)) default

theorem pattern_composed (b : CatchBlock) :
    Composed hooks faults whole c alt n (pattern c b) (pattern (c.refill alt) b)
      (typeOutline? b.type) := by
  obtain ⟨name, type, statements⟩ := b
  cases name with
  | none =>
    cases type with
    | none => exact .wordy (d := .empty) trivial
    | some t => exact .after_text (.typeRefAs _ t)
  | some name =>
    have hname : (Doc.text " let " ++ c.identifier name).Wordy := ⟨trivial, trivial⟩
    cases type with
    | none => exact .wordy hname
    | some t => exact .after_words (hname.append (wordy_text _)) (.typeRefAs _ t)

/-- What runs at the end is written first. -/
theorem tryCatch_composed (t : TryStatement) :
    Composed hooks faults whole c alt n (tryCatch c t) (tryCatch (c.refill alt) t) t.outline := by
  obtain ⟨statements, catches, cleanup⟩ := t
  have hhandler : ∀ b : CatchBlock, Composed hooks faults whole c alt n
      (Doc.text " catch" ++ pattern c b ++ openStatements c b.statements)
      (Doc.text " catch" ++ pattern (c.refill alt) b ++ openStatements (c.refill alt) b.statements)
      b.outline := by
    intro b
    obtain ⟨name, type, statements⟩ := b
    exact .beside (.after_text (pattern_composed _)) (openStatements_composed statements)
  refine .assoc (.comm (.assoc (.beside (.text (.after_line (.nested (.beside ?_
    (.statements statements))))) ?_)))
  · exact .statements? (fun ss => .newline (.after_text (openStatements_composed ss))) cleanup
  · rw [catchOutlines_eq]
    exact .concat hhandler catches

theorem statement_composed (h : c.Speaks (.swift lowercaseCases)) (s : Statement) :
    Composed hooks faults whole c alt n ((Language.swift lowercaseCases).statementRule c s)
      ((Language.swift lowercaseCases).statementRule (c.refill alt) s) s.form.outline := by
  obtain ⟨id, form⟩ := s
  cases form with
  | block statements => exact .after_text (openStatements_composed statements)
  | expression value => exact .expression value
  | declare declaration =>
    obtain ⟨name, type, value, constant, readOnly⟩ := declaration
    exact .after_words ⟨⟨trivial, trivial⟩, trivial⟩ (typeAndValue_composed type value)
  | assignment target value => exact .beside (.text (.expression target)) (.expression value)
  | conditional condition thenBranch elseBranch =>
    exact conditionalStatement_composed condition thenBranch elseBranch
  | whileLoop condition body =>
    exact .beside (.after_text (.expression condition)) (openBody_composed body)
  | doWhile condition body =>
    exact .beside (.text (.after_text (openBody_composed body))) (.expression condition)
  | infiniteLoop body =>
    have hbody : Composed hooks faults whole c alt n (openBody c body)
        (openBody (c.refill alt) body) body.outline := openBody_composed body
    show Composed _ _ _ _ _ _ _ _ body.outline
    rw [body.outline_eq] at hbody ⊢
    exact .detached nofun (.after_text (.expression Language.endless)) hbody
  | forTo loop => exact forTo_composed loop
  | forEach loop => exact forEach_composed loop
  | switch value cases default => exact switch_composed value cases default
  | tryCatch attempt => exact tryCatch_composed attempt
  | throwing value =>
    cases value with
    | none => exact .unsupported_detail h (by decide) (.of_chars (by decide))
    | some e => exact .after_text (.expression e)
  | returning value =>
    exact .after_text (.expression? (fun e => .after_text (.expression e)) value)
  | breakLoop | continueLoop | raw => exact .wordy (wordy_text _)
  | empty => exact .wordy (d := .empty) trivial
  | locking value body => exact .unsupported h (by decide)
  | «using» resource => exact .unsupported h (by decide)
  | comment comment =>
    have hwordy : (Doc.concat (comment.lines.map c.lineComment)).Wordy := by
      rw [h.lineComment]
      exact wordy_concat Brace.lineComment_wordy comment.lines
    exact .wordy hwordy

/-! ### Members -/

theorem visibility_wordy (v : Visibility) : (visibility v).Wordy :=
  wordy_whenSome (fun _ => (wordy_text _).append (wordy_text _)) _

theorem virtualityWords_wordy (v : Virtuality) : (virtualityWords v).Wordy := by
  cases v <;> trivial

theorem memberModifiers_composed (m : Member) :
    Composed hooks faults whole c alt n (memberModifiers m) (memberModifiers m) .nothing := by
  refine .perScope fun scope => .wordy ?_
  exact ((wordy_when (visibility_wordy _) _).append (wordy_when (wordy_text _) _)).append
    (wordy_when (virtualityWords_wordy _) _)

theorem genericParameter_composed (p : GenericParameter) :
    Composed hooks faults False c alt n (genericParameter c p) (genericParameter (c.refill alt) p)
      p.outline := by
  refine .after_text (.when (.after_text ?_) nofun)
  rw [GenericParameter.outline, typeOutlines_eq]
  exact .separated (by decide) (fun t => .typeRefAs _ t) p.constraints

theorem genericParameters_composed (ps : List GenericParameter) :
    Composed hooks faults False c alt n (genericParameters c ps)
      (genericParameters (c.refill alt) ps) (.inOrder (ps.map GenericParameter.outline)) :=
  .when (.text (.after_text (.commaList (fun p => genericParameter_composed p) ps))) nofun

/-- The statements may be left out. -/
theorem functionBody_composed (body : MethodBody) :
    Composed hooks faults False c alt n (functionBody c body) (functionBody (c.refill alt) body)
      (.inOrder (statementOutlines body.statements)) := by
  refine .perScope fun scope => .ite (fun _ => .words (d := .newline) trivial nofun) fun _ => ?_
  exact .newline (openStatements_composed body.statements)

theorem constructor_composed (m : Member) (body : MethodBody) :
    Composed hooks faults False c alt n (constructor c m body) (constructor (c.refill alt) m body)
      body.outline := by
  have hvisibility : Composed hooks faults False c alt n
      (perScope fun scope => when (!scope.any TypeScope.isInterface)
        (visibility m.info.visibility))
      (perScope fun scope => when (!scope.any TypeScope.isInterface)
        (visibility m.info.visibility)) .nothing :=
    .perScope fun _ => .wordy (wordy_when (visibility_wordy _) _)
  refine .right (.beside (.before_words (.after (.text (.before_words hvisibility ?_))
    (Brace.parameterList_composed body.parameters)) ?_)
    (.right (functionBody_composed body) nofun)) nofun
  · exact wordy_when (wordy_text _) _
  · exact wordy_when (wordy_text _) _

/-- The signature of a function says its type parameters, its parameters and its result. -/
theorem method_composed (m : Member) (body : MethodBody) :
    Composed hooks faults False c alt n (method c m body) (method (c.refill alt) m body)
      body.outline := by
  have hhead : Composed hooks faults False c alt n
      (memberModifiers m ++ Doc.text "func " ++ c.identifier m.name)
      (memberModifiers m ++ Doc.text "func " ++ c.identifier m.name) .nothing :=
    .text (.text (memberModifiers_composed m))
  have hflag : ∀ (b : Bool) (s : String), (when b (Doc.text s)).Wordy :=
    fun b s => wordy_when (wordy_text s) b
  refine .equal (.reverse ..) (.assoc (.assoc (.beside (.beside (.before_words
    (.before_words (.beside (.after hhead (genericParameters_composed body.genericParameters))
      (Brace.parameterList_composed body.parameters)) (hflag body.isAsync " async"))
    (hflag body.throws " throws")) (returnClause_composed body.returnType))
    (functionBody_composed body))))

theorem customOperator_composed (h : c.Speaks (.swift lowercaseCases))
    (operator : OverloadableOperator) (body : MethodBody) :
    Composed hooks faults False c alt n (customOperator c operator body)
      (customOperator (c.refill alt) operator body) body.outline := by
  have hn : Plain operator.name := by cases operator <;> exact .of_chars (by decide)
  unfold customOperator
  cases hs : operatorSymbol operator with
  | none => exact .unsupported_detail h (by decide) hn
  | some symbol =>
    refine .equal (.swap ..) (.assoc (.beside (.beside (.after_words ?_
      (Brace.parameterList_composed body.parameters)) (returnClause_composed body.returnType))
      (.right (functionBody_composed body) nofun)))
    exact ⟨⟨trivial, trivial⟩, trivial⟩

theorem parameter_composed (p : Parameter) :
    Composed hooks faults whole c alt n (parameter c p) (parameter (c.refill alt) p)
      (.beside p.type.outline (expressionOutline? p.default)) := by
  have hlabel : (whenSome p.externalName fun label => c.identifier label ++ Doc.text " ").Wordy :=
    wordy_whenSome (fun _ => (wordy_text _).append (wordy_text _)) p.externalName
  have hwords := ((hlabel.append (wordy_text (c.naming.resolve .escaped .ordinary p.name))).append
    (wordy_text ": ")).append
      (wordy_when (wordy_text "inout ") (p.modifier == .out || p.modifier == .byReference))
  refine .beside (.before_words (.after_words hwords (.typeRef p.type)) ?_) ?_
  · exact wordy_when (wordy_text _) _
  · exact .expression? (fun e => .after_text (.expression e)) p.default

theorem field_composed (h : c.Speaks (.swift lowercaseCases)) (m : Member) (f : FieldMember) :
    Composed hooks faults False c alt n (field c m f) (field (c.refill alt) m f) f.outline := by
  refine .ite (fun _ => .unsupported_detail h (by decide) (.of_chars (by decide))) fun _ => ?_
  refine .newline (.after ?_ (typeAndValue_composed f.type f.initializer))
  exact .text (.text (.text (memberModifiers_composed m)))

/-- The parameters of a subscript are written before its type. -/
theorem propertyHead_composed (m : Member) (p : PropertyMember) :
    Composed hooks faults False c alt n (propertyHead c m p) (propertyHead (c.refill alt) m p)
      (.beside (.inOrder (parameterOutlines p.parameters)) p.type.outline) := by
  refine .beside (.after (memberModifiers_composed m) (.ite (fun _ => ?_) fun _ => ?_))
    (.typeRef p.type)
  · exact .words ⟨⟨trivial, trivial⟩, trivial⟩ nofun
  · exact .text (.after_text (Brace.parameterList_composed p.parameters))

theorem accessor_composed (keyword : String) (ss : List Statement) :
    Composed hooks faults whole c alt n (accessor c keyword ss)
      (accessor (c.refill alt) keyword ss) (.inOrder (statementOutlines ss)) :=
  .newline (.after_text (openStatements_composed ss))

theorem property_composed (m : Member) (p : PropertyMember) :
    Composed hooks faults False c alt n (property c m p) (property (c.refill alt) m p)
      p.outline := by
  refine .equal (.trans (.beside (.comm ..) (.refl _)) (.assoc ..))
    (.beside (propertyHead_composed m p) (.perScope fun scope => ?_))
  refine .ite (fun _ => .words (wordy_line _) nofun) fun _ => .ite (fun _ => ?_) fun _ => ?_
  · refine .right (.right (.newline ?_) nofun) nofun
    exact .expression? (fun e => .after_text (.expression e)) p.initializer
  · refine .assoc (.left (.newline (braces_composed (.beside ?_ ?_))) nofun)
    · exact .statements? (fun ss => accessor_composed "get" ss) p.getter
    · exact .statements? (fun ss => accessor_composed "set" ss) p.setter

theorem member_composed (h : c.Speaks (.swift lowercaseCases)) (m : Member) :
    Composed hooks faults False c alt (.member m) ((Language.swift lowercaseCases).memberRule c m)
      ((Language.swift lowercaseCases).memberRule (c.refill alt) m) m.form.outline := by
  obtain ⟨id, name, info, virtuality, isStatic, form⟩ := m
  cases form with
  | constructor body => exact constructor_composed _ body
  | destructor body | finalizer body =>
    refine .right (.right (.right ?_ nofun) nofun) nofun
    exact .after_text (functionBody_composed body)
  | method body => exact method_composed _ body
  | field f => exact field_composed h _ f
  | property p => exact property_composed _ p
  | event e => exact .unsupported h (by decide)
  | customOperator operator body => exact customOperator_composed h operator body
  | nestedType nested => exact .definition nested

/-! ### Types and units -/

theorem baseList_composed (ts : List TypeRef) :
    Composed hooks faults False c alt n (baseList c ts) (baseList (c.refill alt) ts)
      (.inOrder (typeOutlines ts)) := by
  refine .when (.after_text ?_) nofun
  rw [typeOutlines_eq]
  exact .commaList (fun t => .typeRefAs _ t) ts

theorem baseList_append_composed (ts us : List TypeRef) :
    Composed hooks faults False c alt n (baseList c (ts ++ us)) (baseList (c.refill alt) (ts ++ us))
      (.beside (.inOrder (typeOutlines ts)) (.inOrder (typeOutlines us))) :=
  .when (.after_text (.types_append (fun t => .typeRefAs _ t) ts us)) nofun

theorem memberList_lists (c : Context) : c.Lists (fun _ _ => Doc.newline) (memberList c) :=
  ⟨rfl, fun _ => rfl, fun _ _ _ => rfl⟩

theorem memberList_composed (ms : List Member) :
    Composed hooks faults False c alt n (memberList c ms) (memberList (c.refill alt) ms)
      (.inOrder (memberOutlines ms)) :=
  .members (memberList_lists c) (memberList_lists _) (fun _ _ => wordy_newline) ms

/-- The type parameters are written before the types that a type builds on. -/
theorem classLike_composed {words : Doc} (hw : words.Wordy) (t : TypeDefinition)
    (body : ClassBody) :
    Composed hooks faults False c alt n (classLike c words t body)
      (classLike (c.refill alt) words t body) body.outline := by
  obtain ⟨parameters, ancestors, interfaces, members, isStatic, isSealed, isAbstract, isPartial⟩ :=
    body
  have hwords := (((visibility_wordy t.info.visibility).append hw).append (wordy_text " ")).append
    (wordy_text (c.naming.resolve .escaped .ordinary t.name))
  refine .equal (.trans (.swap ..) (.assoc ..)) (.newline (.assoc (.beside (.beside
    (.after_words hwords (genericParameters_composed parameters))
    (baseList_append_composed ancestors interfaces))
    (braces_composed (memberList_composed members)))))

/-- An extension names the first of the ancestors. -/
theorem extensionType_composed (t : TypeDefinition) (body : ClassBody) :
    Composed hooks faults False c alt n (extensionType c t body)
      (extensionType (c.refill alt) t body) body.outline := by
  obtain ⟨parameters, ancestors, interfaces, members, isStatic, isSealed, isAbstract, isPartial⟩ :=
    body
  refine .newline (.assoc (.beside (.beside (.after_words ?_ ?_) (baseList_composed interfaces))
    (.right (braces_composed (memberList_composed members)) nofun)))
  · exact (visibility_wordy _).append (wordy_text _)
  · cases ancestors with
    | nil => exact .wordy (wordy_text _)
    | cons target more => exact .first (.typeRefAs _ target) nofun

theorem docComment_wordy (comment : Comment) :
    ((Language.swift lowercaseCases).docComment comment).Wordy :=
  ⟨Brace.docLines_wordy comment.lines, trivial⟩

theorem enumCase_composed (h : c.Speaks (.swift lowercaseCases)) (v : EnumCase) :
    Composed hooks faults False c alt n (enumCase c lowercaseCases v)
      (enumCase (c.refill alt) lowercaseCases v) v.outline := by
  have hcomment : (whenSome v.comment c.docComment).Wordy := by
    rw [h.docComment]
    exact wordy_whenSome docComment_wordy v.comment
  have hwords := (hcomment.append (wordy_text "case ")).append
    (wordy_text (c.naming.resolve .escaped .ordinary (caseName lowercaseCases v.name)))
  refine .newline (.after_words hwords ?_)
  exact .expression? (fun e => .after_text (.expression e)) v.value

/-- The types of the parameters of a callable type stand without the parameters. -/
theorem parameterTypes_composed (ps : List Parameter) :
    Composed hooks faults False c alt n (commaList (ps.map fun p => c.typeRef p.type))
      (commaList (ps.map fun p => alt.typeRef p.type)) (.inOrder (parameterOutlines ps)) := by
  rw [parameterOutlines_eq]
  refine .commaList (fun p => ?_) ps
  rw [p.outline_eq]
  exact .within nofun nofun (.left (.typeRef p.type) nofun)

theorem definition_composed (h : c.Speaks (.swift lowercaseCases)) (t : TypeDefinition) :
    Composed hooks faults False c alt n ((Language.swift lowercaseCases).definitionRule c t)
      ((Language.swift lowercaseCases).definitionRule (c.refill alt) t) t.form.outline := by
  obtain ⟨id, name, info, form⟩ := t
  have hhead : ∀ word : String, (visibility info.visibility ++ Doc.text word ++
      c.identifier name).Wordy :=
    fun word => ((visibility_wordy _).append (wordy_text word)).append (wordy_text _)
  cases form with
  | aliasType actual strict =>
    exact .newline (.after_words ((hhead _).append (wordy_text _)) (.typeRef actual))
  | enumeration base cases =>
    have hwords := (((visibility_wordy info.visibility).append (wordy_text "enum")).append
      (wordy_text " ")).append (wordy_text (c.naming.resolve .escaped .ordinary name))
    refine .newline (.beside (.after_words hwords ?_)
      (braces_composed (.concat (fun v => enumCase_composed h v) cases)))
    cases base with
    | none => exact .wordy (d := .empty) trivial
    | some b => exact .equal (.before_nothing _) (baseList_composed [b])
  | classType body =>
    exact classLike_composed ((wordy_when (wordy_text _) _).append (wordy_text _)) _ body
  | structType body | interfaceType body => exact classLike_composed (wordy_text _) _ body
  | extensionType body => exact extensionType_composed _ body
  | blockType parameters result =>
    refine .comm (.newline (.beside (.text (.after_words ((hhead _).append (wordy_text _))
      (parameterTypes_composed parameters))) (resultType_composed result)))

end

end Swift

open Doc Swift in
/-- The rules of Swift put their documents together from parts. -/
theorem Language.swift_composes (lowercaseCases : Bool) :
    (swift lowercaseCases).Composes Swift.faults where
  wordy :=
    { lineComment := Brace.lineComment_wordy
      inlineComment := Brace.inlineComment_wordy
      importing := fun _ _ => ⟨⟨trivial, trivial⟩, trivial⟩ }
  importing _ _ _ := rfl
  docComment comment := Brace.docLines_wordy comment.lines
  conditionStart e _ := Brace.conditionStart_composed e
  conditionEnd _ := wordy_line _
  conditionEnd_refill _ _ := rfl
  attributeLine a _ := by
    refine .newline (.beside (.after_text (.typeRefAs _ a.type)) (.when ?_ nofun))
    exact .text (.after_text (Brace.arguments_composed a.arguments))
  enclose_events _ _ _ _ := rfl
  enclose _ _ _ _ _ h := h
  globals gs _ := .concat (fun g => .member g.member) gs
  expression e hc := expression_composed hc e
  typeRef t hc := typeRule_composed hc t
  parameter p _ := parameter_composed p
  statement s hc := statement_composed hc s
  member m hc := member_composed hc m
  definition t hc := definition_composed hc t

end SourcePrinter
