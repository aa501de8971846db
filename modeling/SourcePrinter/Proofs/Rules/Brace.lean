import SourcePrinter.Proofs.Composed
import SourcePrinter.Language.Brace

/-! The shared rules of the languages with curly braces put their documents together from the parts
of what they write. -/

namespace SourcePrinter

namespace Brace

open Doc

/-! ### Words -/

theorem lineComment_wordy (s : String) : (lineComment s).Wordy := wordy_line _

theorem inlineComment_wordy (s : String) : (inlineComment s).Wordy := ⟨⟨trivial, trivial⟩, trivial⟩

theorem docLines_wordy (lines : List String) : (docLines lines).Wordy :=
  wordy_concat (fun _ => wordy_line _) lines

theorem genericNames_wordy (c : Context) (parameters : List GenericParameter) :
    (genericNames c parameters).Wordy := by
  have hname : ∀ p : GenericParameter, (c.identifier p.name).Wordy := fun _ => trivial
  have hnames : (text "<" ++ commaList (parameters.map fun p => c.identifier p.name) ++
      text ">").Wordy := ⟨⟨trivial, wordy_separated (by decide) hname parameters⟩, trivial⟩
  exact wordy_when hnames _

section

variable {hooks : Hooks} {faults : Faults} {whole : Prop} {c alt : Context} {n : Node}

/-! ### Blocks and conditions -/

theorem braced_composed {d d' : Doc} {o : Outline}
    (h : Composed hooks faults whole c alt n d d' o) :
    Composed hooks faults whole c alt n (braced d) (braced d') o :=
  .line (.after_line (.nested h))

theorem block_composed (ss : List Statement) :
    Composed hooks faults whole c alt n (block c ss) (block (c.refill alt) ss)
      (.inOrder (statementOutlines ss)) :=
  braced_composed (.statements ss)

theorem body_composed (s : Statement) :
    Composed hooks faults whole c alt n (body c s) (body (c.refill alt) s) s.outline :=
  braced_composed (.body s)

theorem conditionStart_composed (e : Expression) :
    Composed hooks faults whole c alt n (conditionStart c e) (conditionStart (c.refill alt) e)
      e.outline :=
  .newline (.after_text (.expression e))

/-! ### Operators -/

theorem plain_name (operator : BinaryOperator) : Plain operator.name := by
  cases operator <;> exact .of_chars (by decide)

theorem binary_composed {l : Language} (h : c.Speaks l) (symbol : Option String) (lhs rhs : Expression)
    (operator : BinaryOperator) :
    Composed l.hooks faults whole c alt n (binary c symbol lhs operator rhs)
      (binary (c.refill alt) symbol lhs operator rhs) (.beside lhs.outline rhs.outline) := by
  cases symbol with
  | none => exact .unsupported_detail h (by decide) (plain_name operator)
  | some s => exact .beside (.text (.expression lhs)) (.expression rhs)

theorem unary_composed (operator : UnaryOperator) (value : Expression) :
    Composed hooks faults whole c alt n (unary c operator value)
      (unary (c.refill alt) operator value) value.outline :=
  .after_text (.expression value)

theorem conditional_composed (condition ifTrue ifFalse : Expression) :
    Composed hooks faults whole c alt n (conditional c condition ifTrue ifFalse)
      (conditional (c.refill alt) condition ifTrue ifFalse)
      (.beside condition.outline (.beside ifTrue.outline ifFalse.outline)) := by
  refine .assoc (.beside (.text ?_) (.expression ifFalse))
  exact .beside (.text (.expression condition)) (.expression ifTrue)

/-! ### Access and calls -/

theorem site_composed (value : Option Expression) (nullSafe : Bool) :
    Composed hooks faults whole c alt n (site c value nullSafe)
      (site (c.refill alt) value nullSafe) (expressionOutline? value) :=
  .expression? (fun e => .text (.expression e)) value

theorem argument_composed (a : Argument) :
    Composed hooks faults whole c alt n (argument c a) (argument (c.refill alt) a) a.outline := by
  obtain ⟨value, label, modifier⟩ := a
  refine .after_words (wordy_whenSome (fun _ => ?_) label) (.expression value)
  exact ⟨trivial, trivial⟩

theorem arguments_composed (as : List Argument) :
    Composed hooks faults whole c alt n (arguments c as) (arguments (c.refill alt) as)
      (.inOrder (argumentOutlines as)) := by
  rw [argumentOutlines_eq]
  exact .commaList (fun a => argument_composed a) as

theorem genericArguments_composed (types : List TypeRef) :
    Composed hooks faults whole c alt n (genericArguments c types)
      (genericArguments (c.refill alt) types) (.inOrder (typeOutlines types)) :=
  .when (.text (.after_text (.typeRefs types))) fun _ _ => Outline.own_typeRefs types

theorem field_composed (access : FieldAccess) :
    Composed hooks faults whole c alt n (field c access) (field (c.refill alt) access)
      access.outline := by
  obtain ⟨value, name, nullSafe⟩ := access
  exact .text (site_composed value nullSafe)

theorem property_composed (access : PropertyAccess) :
    Composed hooks faults whole c alt n (property c access) (property (c.refill alt) access)
      access.outline := by
  obtain ⟨value, name, arguments, nullSafe⟩ := access
  have hname : (when (!name.isEmpty) (c.identifier name) ++ Doc.text "[").Wordy :=
    ⟨wordy_when (d := c.identifier name) trivial _, trivial⟩
  refine .beside (site_composed value nullSafe) ?_
  cases arguments with
  | nil => exact .wordy (d := c.identifier name) trivial
  | cons a more => exact .text (.after_words hname (arguments_composed (a :: more)))

theorem call_composed (x : MethodCall) :
    Composed hooks faults whole c alt n (call c x) (call (c.refill alt) x) x.outline := by
  obtain ⟨value, name, types, arguments, nullSafe⟩ := x
  refine .text (.assoc (.beside (.text ?_) (arguments_composed arguments)))
  exact .beside (.text (site_composed value nullSafe)) (genericArguments_composed types)

theorem element_composed (array : Expression) (indices : List Expression) :
    Composed hooks faults whole c alt n (element c array indices)
      (element (c.refill alt) array indices)
      (.beside array.outline (.inOrder (expressionOutlines indices))) :=
  .text (.beside (.text (.expression array)) (.expressions indices))

theorem parameterList_composed (parameters : List Parameter) :
    Composed hooks faults whole c alt n (parameterList c parameters)
      (parameterList (c.refill alt) parameters) (.inOrder (parameterOutlines parameters)) := by
  rw [parameterOutlines_eq]
  exact .text (.after_text (.commaList (fun p => .parameter p) parameters))

/-- The entries of a dictionary, each a key and its value. -/
theorem entries_composed {entry entry' : Expression × Expression → Doc}
    (he : ∀ k v, Composed hooks faults whole c alt n (entry (k, v)) (entry' (k, v))
      (.beside k.outline v.outline))
    {keys values : List Expression} (hl : keys.length = values.length) :
    Composed hooks faults whole c alt n (commaList ((keys.zip values).map entry))
      (commaList ((keys.zip values).map entry'))
      (.entries (expressionOutlines keys) (expressionOutlines values)) := by
  have ho : Outline.entries (expressionOutlines keys) (expressionOutlines values) =
      .inOrder ((keys.zip values).map fun pair => .beside pair.1.outline pair.2.outline) := by
    induction keys generalizing values with
    | nil =>
      cases values with
      | nil => rfl
      | cons => cases hl
    | cons k ks ih =>
      cases values with
      | nil => cases hl
      | cons v vs => exact congrArg _ (ih (Nat.succ.inj hl))
  rw [ho]
  have hpair : ∀ pair : Expression × Expression, Composed hooks faults whole c alt n (entry pair)
      (entry' pair) (.beside pair.1.outline pair.2.outline) := fun pair => he pair.1 pair.2
  exact .commaList hpair _

/-! ### Literals -/

theorem integerLiteral_composed {mark? : Nat → Option String} {value : Int} {base : Nat}
    (hf : mark? base = none → faults n ("the " ++ c.language ++
      " backend cannot spell integer literals in base " ++ toString base)) :
    Composed hooks faults whole c alt n (integerLiteral c mark? value base)
      (integerLiteral (c.refill alt) mark? value base) .nothing := by
  unfold integerLiteral
  cases hm : mark? base with
  | none => exact .fault (hf hm)
  | some mark => exact .wordy (d := Doc.text _) trivial

theorem floatLiteral_composed {value : Binary64}
    (hf : value.isFinite = false → faults n ("non-finite float literal " ++ value.decimal)) :
    Composed hooks faults whole c alt n (floatLiteral value) (floatLiteral value) .nothing := by
  refine .ite (fun _ => .wordy trivial) fun hv => .fault (hf ?_)
  simpa using hv

/-! ### Statements -/

theorem expressionStatement_composed (value : Expression) :
    Composed hooks faults whole c alt n (expressionStatement c value)
      (expressionStatement (c.refill alt) value) value.outline :=
  .line (.expression value)

theorem assignment_composed (target value : Expression) :
    Composed hooks faults whole c alt n (assignment c target value)
      (assignment (c.refill alt) target value) (.beside target.outline value.outline) :=
  .line (.beside (.text (.expression target)) (.expression value))

theorem keywordStatement_composed (keyword : String) (value : Option Expression) :
    Composed hooks faults whole c alt n (keywordStatement c keyword value)
      (keywordStatement (c.refill alt) keyword value) (expressionOutline? value) :=
  .line (.after_text (.expression? (fun e => .after_text (.expression e)) value))

theorem conditionalStatement_composed (condition : Expression) (thenBranch : Statement)
    (elseBranch : Option Statement) :
    Composed hooks faults whole c alt n
      (conditionalStatement c condition thenBranch elseBranch)
      (conditionalStatement (c.refill alt) condition thenBranch elseBranch)
      (.beside condition.outline
        (.beside thenBranch.outline (statementOutline? elseBranch))) := by
  have hthen : Composed hooks faults whole c alt n
      (Doc.text "if (" ++ c.expression condition ++ Doc.line ")" ++ body c thenBranch)
      (Doc.text "if (" ++ alt.expression condition ++ Doc.line ")" ++
        body (c.refill alt) thenBranch) (.beside condition.outline thenBranch.outline) :=
    .beside (.line (.after_text (.expression condition))) (body_composed thenBranch)
  refine (hthen.beside (.statement? (fun other => ?_) elseBranch)).assoc
  exact .ite (fun _ => .after_text (.statement other)) fun _ => .after_line (body_composed other)

theorem whileLoop_composed (condition : Expression) (s : Statement) :
    Composed hooks faults whole c alt n (whileLoop c condition s)
      (whileLoop (c.refill alt) condition s) (.beside condition.outline s.outline) :=
  .beside (.line (.after_text (.expression condition))) (body_composed s)

theorem doWhile_composed (condition : Expression) (s : Statement) :
    Composed hooks faults whole c alt n (doWhile c condition s)
      (doWhile (c.refill alt) condition s) (.beside s.outline condition.outline) :=
  .line (.beside (.text (.after_line (body_composed s))) (.expression condition))

end

end Brace

end SourcePrinter
