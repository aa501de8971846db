import SourcePrinter.Proofs.Rules.Brace
import SourcePrinter.Proofs.Rules.Plain
import SourcePrinter.Language.CSharp

/-! The rules of C# put their documents together from the parts of what they write. -/

namespace SourcePrinter

namespace CSharp

open Doc

/-- What is wrong with a node in C#: besides the faults of every language, an octal integer, a
character that is no single unit, and a conversion to no type. -/
def fault? : Node → Option String
  | .expression e =>
    match e.form with
    | .integer _ base =>
      if base = 8 then some "the C# backend cannot spell integer literals in base 8" else e.fault?
    | .character value =>
      if value.toNat < 0x10000 then none
      else some ("character U+" ++ codePoint value ++ " does not fit a C# char")
    | _ => e.fault?
  | .member m =>
    match m.form with
    | .customOperator operator body =>
      if isConversion operator && body.returnType.isNone then
        some ("conversion operator " ++ m.name ++ " has no target type")
      else none
    | _ => none
  | _ => none

/-- The faults of the nodes of a tree in C#. -/
abbrev faults : Faults := .of fault?

section

variable {whole : Prop} {c alt : Context} {n : Node}

/-! ### Expressions -/

theorem array_composed (elements : List Expression) (elementType : Option TypeRef) :
    Composed hooks faults whole c alt n (array c elements elementType)
      (array (c.refill alt) elements elementType)
      (.beside (typeOutline? elementType) (.inOrder (expressionOutlines elements))) := by
  refine .beside ?_ ?_
  · cases elementType with
    | none => exact .wordy (wordy_text _)
    | some t => exact .text (.after_text (.typeRef t))
  · cases elements with
    | nil => exact .wordy (wordy_text _)
    | cons e more => exact .text (.after_text (.expressions (e :: more)))

/-- A type, or a word where it is missing. -/
theorem typeOr_composed {doc doc' : Option TypeRef → Doc} {word : String}
    (hs : ∀ t, doc (some t) = c.typeRef t ∧ doc' (some t) = alt.typeRef t)
    (hn : doc none = .text word ∧ doc' none = .text word) (t : Option TypeRef) :
    Composed hooks faults whole c alt n (doc t) (doc' t) (typeOutline? t) := by
  cases t with
  | none =>
    rw [hn.1, hn.2]
    exact .wordy (wordy_text _)
  | some t =>
    rw [(hs t).1, (hs t).2]
    exact .typeRef t

theorem typeOrObject_composed (t : Option TypeRef) :
    Composed hooks faults whole c alt n (typeOrObject c t) (typeOrObject (c.refill alt) t)
      (typeOutline? t) :=
  typeOr_composed (fun _ => ⟨rfl, rfl⟩) ⟨rfl, rfl⟩ t

theorem dictionary_composed (d : DictionaryLiteral) (hl : d.keys.length = d.values.length) :
    Composed hooks faults whole c alt n (dictionary c d) (dictionary (c.refill alt) d)
      d.outline := by
  obtain ⟨keys, values, keyType, valueType⟩ := d
  refine .assoc (.beside (.text (.beside (.text (.after_text (typeOrObject_composed keyType)))
    (typeOrObject_composed valueType))) ?_)
  cases keys with
  | nil =>
    cases values with
    | nil => exact .wordy (wordy_text _)
    | cons => cases hl
  | cons k ks =>
    refine .text (.after_text (Brace.entries_composed (fun k v => ?_) hl))
    exact .text (.beside (.text (.after_text (.expression k))) (.expression v))

theorem typeCast_composed (cast : TypeCast) :
    Composed hooks faults whole c alt n (typeCast c cast) (typeCast (c.refill alt) cast)
      cast.outline := by
  obtain ⟨value, type, throws⟩ := cast
  refine .ite (fun _ => ?_) fun _ => .beside (.text (.expression value)) (.typeRef type)
  refine .comm (.beside (.text (.after_text (.typeRef type))) ?_)
  exact .ite (fun _ => .expression value) fun _ => .text (.after_text (.expression value))

theorem anonymousMethod_composed (m : AnonymousMethod) :
    Composed hooks faults whole c alt n (expressions.anonymousMethod c m)
      (expressions.anonymousMethod (c.refill alt) m) m.outline := by
  obtain ⟨parameters, returnType, statements⟩ := m
  have hbody : Composed hooks faults whole c alt n (nested (c.statements statements))
      (nested ((c.refill alt).statements statements))
      (.beside (typeOutline? returnType) (.inOrder (statementOutlines statements))) :=
    .right (.nested (.statements statements)) fun _ => Outline.own_typeRef? returnType
  exact .text (.beside (.line (Brace.parameterList_composed parameters)) hbody)

theorem integer_composed (h : c.Speaks .csharp) (id : NodeId) (value : Int) (base : Nat) :
    Composed hooks faults whole c alt (.expression ⟨id, .integer value base⟩)
      (Language.csharp.expressionRule c ⟨id, .integer value base⟩)
      (Language.csharp.expressionRule (c.refill alt) ⟨id, .integer value base⟩) .nothing := by
  refine .ite (fun hb => Brace.integerLiteral_composed fun hm => ?_) fun hb => .fault ?_
  · have h8 : base = 8 := by
      rcases hb with rfl | rfl | rfl | rfl
      · cases hm
      · rfl
      · cases hm
      · cases hm
    subst h8
    rw [h.language]
    show fault? (.expression ⟨id, .integer value 8⟩) = some _
    rfl
  · have h8 : base ≠ 8 := fun h8 => hb (.inr (.inl h8))
    show (if base = 8 then _ else (if _ then none else some _)) = _
    rw [if_neg h8, if_neg hb]

theorem character_composed (id : NodeId) (value : Char) :
    Composed hooks faults whole c alt (.expression ⟨id, .character value⟩) (character c value)
      (character (c.refill alt) value) .nothing :=
  .ite (fun _ => .wordy (wordy_text _)) fun hv => .fault (if_neg hv)

theorem expression_composed (h : c.Speaks .csharp) (e : Expression) :
    Composed hooks faults whole c alt (.expression e) (Language.csharp.expressionRule c e)
      (Language.csharp.expressionRule (c.refill alt) e) e.form.outline := by
  obtain ⟨id, form⟩ := e
  cases form with
  | nil | boolean | string | selfReference | inherited | identifier | localVariable | raw =>
    exact .wordy (wordy_text _)
  | integer value base => exact integer_composed h id value base
  | float value => exact Brace.floatLiteral_composed fun hv => if_neg (by simp [hv])
  | character value => exact character_composed id value
  | array elements elementType => exact array_composed elements elementType
  | dictionary literal =>
    exact .ite (fun hl => dictionary_composed literal hl) fun hl => .fault (if_neg hl)
  | tuple members => exact .text (.after_text (.expressions members))
  | result => exact .unsupported h (by decide)
  | field access => exact Brace.field_composed access
  | property access => exact Brace.property_composed access
  | call x => exact Brace.call_composed x
  | newInstance type arguments =>
    exact .text (.beside (.text (.after_text (.typeRef type)))
      (Brace.arguments_composed arguments))
  | element array indices => exact Brace.element_composed array indices
  | enumValue type value => exact .text (.text (.typeRef type))
  | typeReference type => exact .typeRef type
  | typeOf type | sizeOf type | defaultOf type => exact .text (.after_text (.typeRef type))
  | typeCheck value type => exact .beside (.text (.expression value)) (.typeRef type)
  | typeCast cast => exact typeCast_composed cast
  | binary lhs operator rhs => exact Brace.binary_composed h _ lhs rhs operator
  | unary operator value => exact Brace.unary_composed operator value
  | conditional condition ifTrue ifFalse =>
    exact Brace.conditional_composed condition ifTrue ifFalse
  | parentheses inner => exact .text (.after_text (.expression inner))
  | await inner | addressOf inner | dereference inner => exact .after_text (.expression inner)
  | range start stop inclusive =>
    refine .ite (fun _ => .unsupported_detail h (by decide) (.of_chars (by decide))) fun _ => ?_
    exact .beside (.text (.expression start)) (.expression stop)
  | anonymousMethod method => exact anonymousMethod_composed method

/-! ### Types -/

theorem nullableMark_wordy (t : TypeRef) : (nullableMark t).Wordy :=
  wordy_when (wordy_text _) _

theorem inlineBlock_composed (block : InlineBlock) :
    Composed hooks faults whole c alt n (inlineBlock c block) (inlineBlock (c.refill alt) block)
      block.outline := by
  obtain ⟨parameters, returnType, kind⟩ := block
  cases returnType with
  | none =>
    refine .left ?_ fun _ => rfl
    refine .ite (fun _ => ?_) fun _ => .text (.after_text (.typeRefs parameters))
    exact .words (wordy_text _) fun _ => Outline.own_typeRefs parameters
  | some result =>
    refine .text (.after_text (.equal (.beside (.refl _) (.before_nothing _)) ?_))
    exact .types_append (fun t => .typeRef t) parameters [result]

theorem typeRule_composed (h : c.Speaks .csharp) (t : TypeRef) :
    Composed hooks faults whole c alt n (Language.csharp.typeRule c t)
      (Language.csharp.typeRule (c.refill alt) t) t.form.outline := by
  obtain ⟨id, form, explicit, implied, isClass, defaultValue⟩ := t
  cases form with
  | named type =>
    obtain ⟨name, namespaceName, arguments⟩ := type
    exact .before_words (.after_words (c.wordy_typeName _)
      (Brace.genericArguments_composed arguments)) (nullableMark_wordy _)
  | predefined type =>
    exact .before_words (.wordy (wordy_text _)) (nullableMark_wordy _)
  | pointer target kind =>
    cases kind with
    | pointer => exact .text (.typeRef target)
    | reference => exact .after_text (.typeRef target)
  | array element bounds kind =>
    exact .before_words (.text (.typeRef element)) (nullableMark_wordy _)
  | dictionary key value =>
    exact .text (.beside (.text (.after_text (.typeRef key))) (.typeRef value))
  | tuple members =>
    exact .before_words (.text (.after_text (.typeRefs members))) (nullableMark_wordy _)
  | sequence element => exact .text (.after_text (.typeRef element))
  | kindOf target | constant target => exact .typeRef target
  | inlineBlock block => exact inlineBlock_composed block
  | range start stop => exact .unsupported h (by decide)
  | unknown => exact .wordy (wordy_text _)

/-! ### Statements -/

theorem typeOrVar_composed (t : Option TypeRef) :
    Composed hooks faults whole c alt n (typeOrVar c t) (typeOrVar (c.refill alt) t)
      (typeOutline? t) :=
  typeOr_composed (fun _ => ⟨rfl, rfl⟩) ⟨rfl, rfl⟩ t

theorem declare_composed (d : VariableDeclaration) :
    Composed hooks faults whole c alt n (declare c d) (declare (c.refill alt) d) d.outline := by
  obtain ⟨name, type, value, constant, readOnly⟩ := d
  have hconst : (when constant (Doc.text "const ")).Wordy :=
    wordy_when (wordy_text _) _
  refine .line (.beside (.text (.text (.after_words hconst ?_))) ?_)
  · cases type with
    | none => exact .wordy (wordy_text _)
    | some t => exact .typeRef t
  · exact .expression? (fun e => .after_text (.expression e)) value

theorem forTo_composed (l : CountingLoop) :
    Composed hooks faults whole c alt n (forTo c l) (forTo (c.refill alt) l) l.outline := by
  obtain ⟨counter, type, start, stop, step, direction, body⟩ := l
  refine .assoc (.assoc (.assoc (.beside (.line (.beside (.text (.text (.beside
    (.text (.text (.text (.beside (.text (.text (.text (.after_text
      (typeOrVar_composed type))))) (.expression start))))) (.expression stop)))) ?_))
    (Brace.body_composed body))))
  cases step with
  | none => exact .wordy (wordy_text _)
  | some step => exact .after_text (.expression step)

theorem forEach_composed (l : CollectionLoop) :
    Composed hooks faults whole c alt n (forEach c l) (forEach (c.refill alt) l) l.outline := by
  obtain ⟨element, type, collection, body⟩ := l
  refine .assoc (.beside (.line (.beside ?_ (.expression collection))) (Brace.body_composed body))
  exact .text (.text (.text (.after_text (typeOrVar_composed type))))

theorem caseBody_composed (ss : List Statement) :
    Composed hooks faults whole c alt n (caseBody c ss) (caseBody (c.refill alt) ss)
      (.inOrder (statementOutlines ss)) :=
  .nested (.before_words (.statements ss) (wordy_when (wordy_line _) _))

theorem switchCase_composed (s : SwitchCase) :
    Composed hooks faults whole c alt n (switchCase c s) (switchCase (c.refill alt) s)
      s.outline := by
  obtain ⟨labels, statements⟩ := s
  refine .beside ?_ (caseBody_composed statements)
  rw [expressionOutlines_eq]
  exact .concat (fun label => .line (.after_text (.expression label))) labels

theorem switch_composed (value : Expression) (cases : List SwitchCase)
    (default : Option (List Statement)) :
    Composed hooks faults whole c alt n (switch c value cases default)
      (switch (c.refill alt) value cases default)
      (.beside value.outline (.beside (.inOrder (caseOutlines cases))
        (.inOrder (statementOutlines? default)))) := by
  refine .beside (.line (.after_text (.expression value))) (Brace.braced_composed (.beside ?_ ?_))
  · rw [caseOutlines_eq]
    exact .concat (fun s => switchCase_composed s) cases
  · exact .statements? (fun ss => .after_line (caseBody_composed ss)) default

theorem handler_composed (b : CatchBlock) :
    Composed hooks faults whole c alt n (handler c b) (handler (c.refill alt) b) b.outline := by
  obtain ⟨name, type, statements⟩ := b
  have hname : (whenSome name fun name => Doc.text " " ++ c.identifier name).Wordy :=
    wordy_whenSome (fun _ => (wordy_text _).append (wordy_text _)) name
  refine .beside (.newline (.after_text (.typeRef? (fun t => ?_) type)))
    (Brace.block_composed statements)
  exact .text (.before_words (.after_text (.typeRef t)) hname)

theorem tryCatch_composed (t : TryStatement) :
    Composed hooks faults whole c alt n (tryCatch c t) (tryCatch (c.refill alt) t) t.outline := by
  obtain ⟨statements, catches, cleanup⟩ := t
  refine .assoc (.beside (.beside (.after_line (Brace.block_composed statements)) ?_) ?_)
  · rw [catchOutlines_eq]
    exact .concat (fun b => handler_composed b) catches
  · exact .statements? (fun ss => .after_line (Brace.block_composed ss)) cleanup

theorem statement_composed (h : c.Speaks .csharp) (s : Statement) :
    Composed hooks faults whole c alt n (Language.csharp.statementRule c s)
      (Language.csharp.statementRule (c.refill alt) s) s.form.outline := by
  obtain ⟨id, form⟩ := s
  cases form with
  | block statements => exact Brace.block_composed statements
  | expression value => exact Brace.expressionStatement_composed value
  | declare declaration => exact declare_composed declaration
  | assignment target value => exact Brace.assignment_composed target value
  | conditional condition thenBranch elseBranch =>
    exact Brace.conditionalStatement_composed condition thenBranch elseBranch
  | whileLoop condition body => exact Brace.whileLoop_composed condition body
  | doWhile condition body => exact Brace.doWhile_composed condition body
  | infiniteLoop body =>
    show Composed _ _ _ _ _ _ _ _ body.outline
    have hbody : Composed hooks faults whole c alt n (Brace.body c body)
        (Brace.body (c.refill alt) body) body.outline := Brace.body_composed body
    rw [body.outline_eq] at hbody ⊢
    exact .detached nofun (.line (.after_text (.expression Language.endless))) hbody
  | forTo loop => exact forTo_composed loop
  | forEach loop => exact forEach_composed loop
  | switch value cases default => exact switch_composed value cases default
  | tryCatch attempt => exact tryCatch_composed attempt
  | throwing value | returning value => exact Brace.keywordStatement_composed _ value
  | breakLoop | continueLoop => exact Brace.keywordStatement_composed _ none
  | empty => exact .wordy (wordy_line _)
  | raw s => exact .wordy (wordy_text s)
  | locking value body =>
    exact .beside (.line (.after_text (.expression value))) (Brace.body_composed body)
  | «using» resource =>
    obtain ⟨name, type, value, body⟩ := resource
    refine .assoc (.beside (.line (.beside ?_ (.expression value))) (Brace.body_composed body))
    exact .text (.text (.text (.after_text (typeOrVar_composed type))))
  | comment comment =>
    have hwordy : (Doc.concat (comment.lines.map c.lineComment)).Wordy := by
      rw [h.lineComment]
      exact wordy_concat Brace.lineComment_wordy comment.lines
    exact .wordy hwordy

/-! ### Members -/

theorem wordSpace_wordy (word : Option String) : (wordSpace word).Wordy :=
  wordy_whenSome (fun _ => (wordy_text _).append (wordy_text _)) word

theorem memberModifiers_composed (m : Member) :
    Composed hooks faults whole c alt n (memberModifiers m) (memberModifiers m) .nothing := by
  have hstatic : ∀ b : Bool, (when b (Doc.text "static ")).Wordy :=
    fun b => wordy_when (wordy_text _) b
  refine .perScope fun scope => .wordy (wordy_when ?_ _)
  exact ((wordSpace_wordy _).append (hstatic _)).append (wordSpace_wordy _)

theorem ownerName_composed (m : Member) :
    Composed hooks faults whole c alt n (ownerName c m) (ownerName (c.refill alt) m) .nothing :=
  .perScope fun _ => .wordy (wordy_text _)

theorem returnType_composed (t : Option TypeRef) :
    Composed hooks faults whole c alt n (returnType c t) (returnType (c.refill alt) t)
      (typeOutline? t) :=
  typeOr_composed (fun _ => ⟨rfl, rfl⟩) ⟨rfl, rfl⟩ t

/-- The bounds of type parameters; those without bounds have no nodes. -/
theorem genericConstraints_composed (ps : List GenericParameter) :
    Composed hooks faults False c alt n (genericConstraints c ps)
      (genericConstraints (c.refill alt) ps) (.inOrder (ps.map GenericParameter.outline)) := by
  unfold genericConstraints
  induction ps with
  | nil => exact .wordy (d := .empty) trivial
  | cons p more ih =>
    rw [List.filter_cons]
    split
    · refine .before (.after_words (((wordy_text _).append (wordy_text _)).append (wordy_text _)) ?_) ih
      exact .typeRefs p.constraints
    · next hp =>
      have hnil : p.constraints = [] := by simpa using hp
      rw [List.map_cons, GenericParameter.outline, hnil]
      exact .equal (.symm (.nothing_before _)) ih

/-- The statements may be left out. -/
theorem methodBody_composed (m : Member) (body : MethodBody) :
    Composed hooks faults False c alt n (methodBody c m body) (methodBody (c.refill alt) m body)
      (.inOrder (statementOutlines body.statements)) := by
  refine .perScope fun scope => .ite (fun _ => .words (wordy_line _) nofun) fun _ => ?_
  exact .after_words (t := .newline) trivial (Brace.block_composed body.statements)

theorem method_composed (m : Member) (body : MethodBody) :
    Composed hooks faults False c alt n (method c m body) (method (c.refill alt) m body)
      body.outline := by
  have hextern : (when body.external (Doc.text "extern ")).Wordy :=
    wordy_when (wordy_text _) _
  have hasync : (when body.isAsync (Doc.text "async ")).Wordy :=
    wordy_when (wordy_text _) _
  refine .assoc (.assoc (.beside (.beside (.beside ?_
    (Brace.parameterList_composed body.parameters))
    (genericConstraints_composed body.genericParameters)) (methodBody_composed m body)))
  refine .before_words (.text (.text (.after ?_ (returnType_composed body.returnType))))
    (Brace.genericNames_wordy c body.genericParameters)
  exact .before_words (.before_words (memberModifiers_composed m) hextern) hasync

theorem parameter_composed (p : Parameter) :
    Composed hooks faults whole c alt n (parameter c p) (parameter (c.refill alt) p)
      (.beside p.type.outline (expressionOutline? p.default)) := by
  refine .beside (.text (.text (.after_text (.typeRef p.type)))) ?_
  exact .expression? (fun e => .after_text (.expression e)) p.default

/-- The type of a conversion is a fault if it is missing. -/
theorem customOperator_composed (m : Member) (operator : OverloadableOperator) (body : MethodBody)
    (hm : m.form = .customOperator operator body) :
    Composed hooks faults False c alt (.member m) (customOperator c m operator body)
      (customOperator (c.refill alt) m operator body) body.outline := by
  refine .assoc (.beside (.beside (.after_text ?_) (Brace.parameterList_composed body.parameters))
    (.right (methodBody_composed m body) nofun))
  refine .ite (fun hc => ?_) fun _ => .text (.text (returnType_composed body.returnType))
  cases ht : body.returnType with
  | none =>
    refine .fault ?_
    show fault? (.member m) = _
    simp only [fault?, hm, hc, ht, Option.isNone_none, Bool.and_self, if_true]
  | some t => exact .after_words ((wordy_text _).append (wordy_text _)) (.typeRef t)

theorem field_composed (h : c.Speaks .csharp) (m : Member) (f : FieldMember) :
    Composed hooks faults False c alt n (field c m f) (field (c.refill alt) m f) f.outline := by
  obtain ⟨type, initializer, constant, readOnly⟩ := f
  cases type with
  | none => exact .unsupported h (by decide)
  | some t =>
    have hwords : (if constant then Doc.text "const " else
        when readOnly (Doc.text "readonly ")).Wordy := by
      split
      · trivial
      · exact wordy_when (wordy_text _) _
    refine .line (.beside (.text (.text (.after ?_ (.typeRef t)))) ?_)
    · exact .before_words (memberModifiers_composed m) hwords
    · exact .expression? (fun e => .after_text (.expression e)) initializer

theorem accessor_composed (keyword : String) (ss : List Statement) :
    Composed hooks faults whole c alt n (accessor c keyword ss)
      (accessor (c.refill alt) keyword ss) (.inOrder (statementOutlines ss)) :=
  .after_line (Brace.block_composed ss)

theorem accessorSignatures_wordy (p : PropertyMember) : (accessorSignatures p).Wordy :=
  (((wordy_text _).append (wordy_when (wordy_text _) _)).append
    (wordy_when (wordy_text _) _)).append (wordy_text _)

theorem property_composed (m : Member) (p : PropertyMember) :
    Composed hooks faults False c alt n (property c m p) (property (c.refill alt) m p)
      p.outline := by
  refine .assoc (.beside (.beside (.text (.after (memberModifiers_composed m)
    (.typeRef p.type))) (.ite (fun hp => ?_) fun _ => ?_)) (.ite (fun _ => ?_) fun _ => ?_))
  · exact .words (wordy_text _) nofun
  · rw [parameterOutlines_eq]
    exact .text (.after_text (.commaList (fun q => .parameter q) p.parameters))
  · refine .right (.right (.newline (.after_words (accessorSignatures_wordy p) (.when ?_ nofun)))
      nofun) nofun
    exact .expression? (fun e => .text (.after_text (.expression e))) p.initializer
  · refine .after_words (t := .newline) trivial (Brace.braced_composed (.beside ?_ (.left ?_ nofun)))
    · exact .statements? (fun ss => accessor_composed "get" ss) p.getter
    · exact .statements? (fun ss => accessor_composed "set" ss) p.setter

theorem event_composed (m : Member) (e : EventMember) :
    Composed hooks faults False c alt n (event c m e) (event (c.refill alt) m e) e.outline := by
  obtain ⟨type, add, remove⟩ := e
  refine .beside (.text (.text (.after (.text (memberModifiers_composed m)) (.typeRef type)))) ?_
  cases add with
  | none => exact .words (wordy_line _) nofun
  | some add =>
    cases remove with
    | none => exact .words (wordy_line _) nofun
    | some remove =>
      refine .ite (fun _ => .words (wordy_line _) nofun) fun _ => ?_
      exact .after_words (t := .newline) trivial (Brace.braced_composed
        (.beside (accessor_composed "add" add) (accessor_composed "remove" remove)))

theorem member_composed (h : c.Speaks .csharp) (m : Member) :
    Composed hooks faults False c alt (.member m) (Language.csharp.memberRule c m)
      (Language.csharp.memberRule (c.refill alt) m) m.form.outline := by
  obtain ⟨id, name, info, virtuality, isStatic, form⟩ := m
  cases form with
  | constructor body =>
    refine .right (.beside (.after ?_ (Brace.parameterList_composed body.parameters))
      (.right (methodBody_composed _ body) nofun)) nofun
    exact .after (memberModifiers_composed _) (ownerName_composed _)
  | destructor body => exact .unsupported h (by decide)
  | finalizer body =>
    refine .right (.right (.right (.after ?_ (methodBody_composed _ body)) nofun) nofun) nofun
    exact .text (.after_text (ownerName_composed _))
  | method body => exact method_composed _ body
  | field f => exact field_composed h _ f
  | property p => exact property_composed _ p
  | event e => exact event_composed _ e
  | customOperator operator body => exact customOperator_composed _ operator body rfl
  | nestedType nested => exact .definition nested

/-! ### Types and units -/

theorem memberList_lists (c : Context) :
    c.Lists (fun m next => when (!(m.isField && next.isField)) Doc.newline) (memberList c) :=
  ⟨rfl, fun _ => rfl, fun _ _ _ => rfl⟩

theorem memberList_composed (ms : List Member) :
    Composed hooks faults False c alt n (memberList c ms) (memberList (c.refill alt) ms)
      (.inOrder (memberOutlines ms)) :=
  .members (memberList_lists c) (memberList_lists _)
    (fun _ _ => wordy_when (d := .newline) trivial _) ms

theorem baseList_composed (ts us : List TypeRef) :
    Composed hooks faults False c alt n (baseList c (ts ++ us)) (baseList (c.refill alt) (ts ++ us))
      (.beside (.inOrder (typeOutlines ts)) (.inOrder (typeOutlines us))) :=
  .when (.after_text (.types_append (fun t => .typeRef t) ts us)) nofun

theorem classLike_composed (keyword : String) (t : TypeDefinition) (body : ClassBody) :
    Composed hooks faults False c alt n (classLike c keyword t body)
      (classLike (c.refill alt) keyword t body) body.outline := by
  obtain ⟨parameters, ancestors, interfaces, members, isStatic, isSealed, isAbstract, isPartial⟩ :=
    body
  have hflag : ∀ (b : Bool) (s : String), (when b (Doc.text s)).Wordy :=
    fun b s => wordy_when (wordy_text s) b
  have hwords := (((wordSpace_wordy (visibilityWord t.info.visibility)).append
    (hflag isStatic "static ")).append (hflag isAbstract "abstract ")).append
      (hflag isSealed "sealed ")
  have hhead := ((((hwords.append (hflag isPartial "partial ")).append
    (wordy_text keyword)).append (wordy_text " ")).append
      (wordy_text (c.naming.resolve .escaped .ordinary t.name))).append
        (Brace.genericNames_wordy c parameters)
  refine .assoc (.assoc (.beside (.newline (.beside (.after_words hhead
    (baseList_composed ancestors interfaces)) (genericConstraints_composed parameters)))
    (Brace.braced_composed (memberList_composed members))))

theorem docComment_wordy (comment : Comment) : (Language.csharp.docComment comment).Wordy :=
  ⟨Brace.docLines_wordy comment.lines, trivial⟩

theorem enumCases_composed (h : c.Speaks .csharp) (vs : List EnumCase) :
    Composed hooks faults False c alt n (enumCases c vs) (enumCases (c.refill alt) vs)
      (.inOrder (vs.map EnumCase.outline)) := by
  induction vs with
  | nil => exact .wordy (d := .empty) trivial
  | cons v more ih =>
    have hcomment : (whenSome v.comment c.docComment ++ c.identifier v.name).Wordy := by
      rw [h.docComment]
      exact (wordy_whenSome docComment_wordy v.comment).append (wordy_text _)
    refine .before (.newline (.before_words (.after_words hcomment ?_)
      (wordy_when (wordy_text _) _))) ih
    exact .expression? (fun e => .after_text (.expression e)) v.value

theorem definition_composed (h : c.Speaks .csharp) (t : TypeDefinition) :
    Composed hooks faults False c alt n (Language.csharp.definitionRule c t)
      (Language.csharp.definitionRule (c.refill alt) t) t.form.outline := by
  obtain ⟨id, name, info, form⟩ := t
  have hname : ∀ name : String, (c.identifier name).Wordy := fun _ => wordy_text _
  cases form with
  | aliasType actual strict =>
    have hwords := ((wordy_text "using ").append (hname name)).append (wordy_text " = ")
    exact .line (.after_words hwords (.typeRef actual))
  | enumeration base cases =>
    have hwords := ((wordSpace_wordy (visibilityWord info.visibility)).append
      (wordy_text "enum ")).append (hname name)
    exact .beside
      (.newline (.after_words hwords (.typeRef? (fun b => .after_text (.typeRef b)) base)))
      (Brace.braced_composed (enumCases_composed h cases))
  | classType body | structType body | interfaceType body => exact classLike_composed _ _ body
  | extensionType body => exact .unsupported h (by decide)
  | blockType parameters result =>
    have hwords := (wordSpace_wordy (visibilityWord info.visibility)).append
      (wordy_text "delegate ")
    exact .line (.beside (.text (.text (.after_words hwords (returnType_composed result))))
      (Brace.parameterList_composed parameters))

theorem spacedMembers_lists (c : Context) : c.Lists (fun _ _ => Doc.newline) (spacedMembers c) :=
  ⟨rfl, fun _ => rfl, fun _ _ _ => rfl⟩

theorem spacedMembers_composed (ms : List Member) :
    Composed hooks faults False c alt n (spacedMembers c ms) (spacedMembers (c.refill alt) ms)
      (.inOrder (memberOutlines ms)) :=
  .members (spacedMembers_lists c) (spacedMembers_lists _) (fun _ _ => wordy_newline) ms

theorem globals_composed (gs : List Global) :
    Composed hooks faults False c alt n (globals c gs) (globals (c.refill alt) gs)
      (.inOrder (gs.map fun g => g.member.outline)) := by
  have hm : Outline.inOrder (gs.map fun g => g.member.outline) =
      .inOrder (memberOutlines (gs.map Global.member)) := by
    rw [memberOutlines_eq, List.map_map]
    rfl
  have hwords : (Doc.text "public static partial class " ++ c.verbatim hostName ++
      .newline).Wordy := ⟨⟨trivial, trivial⟩, trivial⟩
  rw [hm]
  exact .when (.after_words hwords (Brace.braced_composed (.inside (spacedMembers_composed _))))
    nofun

end

end CSharp

open Doc CSharp in
/-- The rules of C# put their documents together from parts. -/
theorem Language.csharp_composes : csharp.Composes CSharp.faults where
  wordy :=
    { lineComment := Brace.lineComment_wordy
      inlineComment := Brace.inlineComment_wordy
      importing := fun _ _ => ⟨⟨trivial, trivial⟩, wordy_line _⟩ }
  importing _ _ _ := rfl
  docComment comment := Brace.docLines_wordy comment.lines
  conditionStart e _ := Brace.conditionStart_composed e
  conditionEnd _ := wordy_line _
  conditionEnd_refill _ _ := rfl
  attributeLine a _ := by
    refine .line (.beside (.after_text (.typeRef a.type)) (.when ?_ nofun))
    exact .text (.after_text (Brace.arguments_composed a.arguments))
  enclose_events c u d scope := by
    simp only [csharp, CSharp.units]
    split
    · rfl
    · simp [Brace.braced, Context.qualified]
  enclose {c alt n} u d d' o hc h := by
    simp only [csharp, CSharp.units]
    split
    · exact h
    · have hlast := Composed.before_words h (t := .lineStart) trivial
      exact .after_words ⟨⟨trivial, trivial⟩, trivial⟩ (Brace.braced_composed hlast)
  globals gs _ := globals_composed gs
  expression e hc := expression_composed hc e
  typeRef t hc := typeRule_composed hc t
  parameter p _ := parameter_composed p
  statement s hc := statement_composed hc s
  member m hc := member_composed hc m
  definition t hc := definition_composed hc t

end SourcePrinter
