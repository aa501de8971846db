import SourcePrinter.Proofs.Reading
import Mathlib.Tactic.SplitIfs

/-! The texts that the user gives: names, namespaces, raw texts, the lines of comments, and the
contents of string and character literals. What a language makes of a name, a literal or a number
brings in nothing that a reading looks for, but pairs of braces around the numbers of characters. -/

namespace SourcePrinter

/-! ### Texts of nodes -/

def Comment.texts (comment : Option Comment) : List String :=
  comment.toList.flatMap (·.lines)

def argumentTexts (arguments : List Argument) : List String := arguments.filterMap (·.label)

def ExpressionForm.texts : ExpressionForm → List String
  | .string s | .identifier s | .localVariable s | .raw s | .enumValue _ s => [s]
  | .character value => [.singleton value]
  | .field access => [access.name]
  | .property access => access.name :: argumentTexts access.arguments
  | .call x => x.name :: argumentTexts x.arguments
  | .newInstance _ arguments => argumentTexts arguments
  | _ => []

def TypeForm.texts : TypeForm → List String
  | .named type => type.name :: type.namespaceName.toList
  | _ => []

def StatementForm.texts : StatementForm → List String
  | .declare declaration => [declaration.name]
  | .forTo loop => [loop.counter]
  | .forEach loop => [loop.element]
  | .tryCatch attempt => attempt.catches.filterMap (·.name)
  | .using resource => [resource.name]
  | .comment x => x.lines
  | .raw s => [s]
  | _ => []

def DeclarationInfo.texts (info : DeclarationInfo) : List String :=
  Comment.texts info.comment ++ info.attributes.flatMap fun a => argumentTexts a.arguments

def MemberForm.texts : MemberForm → List String
  | .constructor body | .destructor body | .finalizer body | .method body
  | .customOperator _ body => body.genericParameters.map (·.name)
  | .field _ | .property _ | .event _ | .nestedType _ => []

def TypeDefinitionForm.texts : TypeDefinitionForm → List String
  | .enumeration _ cases => cases.flatMap fun v => v.name :: Comment.texts v.comment
  | .classType body | .structType body | .interfaceType body | .extensionType body =>
    body.genericParameters.map (·.name)
  | .aliasType .. | .blockType .. => []

/-- The texts of a node, apart from those of the nodes below it. -/
def Node.texts : Node → List String
  | unit u => u.namespaceName.toList ++ Comment.texts u.headerComment ++ u.imports.map (·.name)
  | definition t => t.name :: (t.info.texts ++ t.form.texts)
  | member m => m.name :: (m.info.texts ++ m.form.texts)
  | parameter p => p.name :: p.externalName.toList
  | statement s => s.form.texts
  | expression e => e.form.texts
  | typeRef t => t.form.texts

/-- The texts in a tree to render. A member may be written with the name of the type that declares
it. -/
def Request.texts (r : Request) : List String :=
  r.outline.nodes.flatMap Node.texts ++
    match r with
    | .member _ (some owner) _ _ => [owner.name]
    | _ => []

/-! ### Trees of nodes of a kind -/

namespace Outline

/-- All nodes of a tree are of a kind, those that type references carry included. -/
def All (P : Node → Prop) (o : Outline) : Prop := ∀ n ∈ o.nodes, P n

instance (P : Node → Prop) [DecidablePred P] (o : Outline) : Decidable (o.All P) :=
  inferInstanceAs (Decidable (∀ n ∈ o.nodes, P n))

section

variable {P : Node → Prop} {x y : Outline}

@[simp] theorem all_nothing : nothing.All P := nofun

@[simp] theorem all_node {n : Node} {parts : Outline} :
    (node n parts).All P ↔ P n ∧ parts.All P := List.forall_mem_cons

@[simp] theorem all_carried : (carried x).All P ↔ x.All P := .rfl

@[simp] theorem all_beside : (beside x y).All P ↔ x.All P ∧ y.All P := List.forall_mem_append

@[simp] theorem all_before : (before x y).All P ↔ x.All P ∧ y.All P := List.forall_mem_append

@[simp] theorem all_inOrder {α : Type} {outline : α → Outline} {items : List α} :
    (inOrder (items.map outline)).All P ↔ ∀ a ∈ items, (outline a).All P := by
  induction items with
  | nil => simp [inOrder]
  | cons a more ih => simp [inOrder, ih]

@[simp] theorem all_expressions {es : List Expression} :
    (inOrder (expressionOutlines es)).All P ↔ ∀ e ∈ es, e.outline.All P := by
  rw [expressionOutlines_eq, all_inOrder]

@[simp] theorem all_arguments {as : List Argument} :
    (inOrder (argumentOutlines as)).All P ↔ ∀ a ∈ as, a.outline.All P := by
  rw [argumentOutlines_eq, all_inOrder]

@[simp] theorem all_parameters {ps : List Parameter} :
    (inOrder (parameterOutlines ps)).All P ↔ ∀ p ∈ ps, p.outline.All P := by
  rw [parameterOutlines_eq, all_inOrder]

@[simp] theorem all_types {ts : List TypeRef} :
    (inOrder (typeOutlines ts)).All P ↔ ∀ t ∈ ts, t.outline.All P := by
  rw [typeOutlines_eq, all_inOrder]

@[simp] theorem all_statements {ss : List Statement} :
    (inOrder (statementOutlines ss)).All P ↔ ∀ s ∈ ss, s.outline.All P := by
  rw [statementOutlines_eq, all_inOrder]

@[simp] theorem all_cases {cs : List SwitchCase} :
    (inOrder (caseOutlines cs)).All P ↔ ∀ c ∈ cs, c.outline.All P := by
  rw [caseOutlines_eq, all_inOrder]

@[simp] theorem all_catches {cs : List CatchBlock} :
    (inOrder (catchOutlines cs)).All P ↔ ∀ c ∈ cs, c.outline.All P := by
  rw [catchOutlines_eq, all_inOrder]

@[simp] theorem all_expression? {value : Option Expression} :
    (expressionOutline? value).All P ↔ ∀ e ∈ value, e.outline.All P := by
  cases value <;> simp [expressionOutline?]

@[simp] theorem all_type? {value : Option TypeRef} :
    (typeOutline? value).All P ↔ ∀ t ∈ value, t.outline.All P := by
  cases value <;> simp [typeOutline?]

@[simp] theorem all_statement? {value : Option Statement} :
    (statementOutline? value).All P ↔ ∀ s ∈ value, s.outline.All P := by
  cases value <;> simp [statementOutline?]

@[simp] theorem all_statements? {value : Option (List Statement)} :
    (inOrder (statementOutlines? value)).All P ↔ ∀ ss ∈ value, ∀ s ∈ ss, s.outline.All P := by
  cases value <;> simp [statementOutlines?, inOrder]

/-- Keys and values of a dictionary are of a kind together. -/
theorem all_entries {ks vs : List Outline} (h : (entries ks vs).All P) :
    (∀ o ∈ ks, o.All P) ∧ ∀ o ∈ vs, o.All P := by
  have hlist : ∀ os : List Outline, (inOrder os).All P → ∀ o ∈ os, o.All P := by
    intro os hos
    rw [← List.map_id os] at hos
    exact all_inOrder.1 hos
  induction ks generalizing vs with
  | nil =>
    cases vs with
    | nil => exact ⟨nofun, nofun⟩
    | cons v more => exact ⟨nofun, hlist _ h⟩
  | cons k rest ih =>
    cases vs with
    | nil => exact ⟨hlist _ h, nofun⟩
    | cons v more =>
      simp only [entries, all_before, all_beside] at h
      obtain ⟨hks, hvs⟩ := ih h.2
      exact ⟨List.forall_mem_cons.2 ⟨h.1.1, hks⟩, List.forall_mem_cons.2 ⟨h.1.2, hvs⟩⟩

end

/-! ### Trees whose texts are overlooked -/

/-- A reading passes over the texts of a tree. -/
def Overlooked (m : Reading) (o : Outline) : Prop :=
  ∀ n ∈ o.nodes, ∀ s ∈ n.texts, m.Overlooks s

section

variable {m : Reading} {x y : Outline}

@[simp] theorem overlooked_nothing : nothing.Overlooked m := nofun

@[simp] theorem overlooked_node {n : Node} {parts : Outline} :
    (node n parts).Overlooked m ↔ (∀ s ∈ n.texts, m.Overlooks s) ∧ parts.Overlooked m := all_node

@[simp] theorem overlooked_carried : (carried x).Overlooked m ↔ x.Overlooked m := .rfl

@[simp] theorem overlooked_beside :
    (beside x y).Overlooked m ↔ x.Overlooked m ∧ y.Overlooked m := all_beside

@[simp] theorem overlooked_before :
    (before x y).Overlooked m ↔ x.Overlooked m ∧ y.Overlooked m := all_before

@[simp] theorem overlooked_inOrder {α : Type} {outline : α → Outline} {items : List α} :
    (inOrder (items.map outline)).Overlooked m ↔ ∀ a ∈ items, (outline a).Overlooked m :=
  all_inOrder

end

end Outline

section

variable {m : Reading}

@[simp] theorem overlooked_expressions {es : List Expression} :
    (Outline.inOrder (expressionOutlines es)).Overlooked m ↔ ∀ e ∈ es, e.outline.Overlooked m :=
  Outline.all_expressions

@[simp] theorem overlooked_arguments {as : List Argument} :
    (Outline.inOrder (argumentOutlines as)).Overlooked m ↔ ∀ a ∈ as, a.outline.Overlooked m :=
  Outline.all_arguments

@[simp] theorem overlooked_parameters {ps : List Parameter} :
    (Outline.inOrder (parameterOutlines ps)).Overlooked m ↔ ∀ p ∈ ps, p.outline.Overlooked m :=
  Outline.all_parameters

@[simp] theorem overlooked_types {ts : List TypeRef} :
    (Outline.inOrder (typeOutlines ts)).Overlooked m ↔ ∀ t ∈ ts, t.outline.Overlooked m :=
  Outline.all_types

@[simp] theorem overlooked_statements {ss : List Statement} :
    (Outline.inOrder (statementOutlines ss)).Overlooked m ↔ ∀ s ∈ ss, s.outline.Overlooked m :=
  Outline.all_statements

@[simp] theorem overlooked_cases {cs : List SwitchCase} :
    (Outline.inOrder (caseOutlines cs)).Overlooked m ↔ ∀ c ∈ cs, c.outline.Overlooked m :=
  Outline.all_cases

@[simp] theorem overlooked_catches {cs : List CatchBlock} :
    (Outline.inOrder (catchOutlines cs)).Overlooked m ↔ ∀ c ∈ cs, c.outline.Overlooked m :=
  Outline.all_catches

@[simp] theorem overlooked_expression? {value : Option Expression} :
    (expressionOutline? value).Overlooked m ↔ ∀ e ∈ value, e.outline.Overlooked m :=
  Outline.all_expression?

@[simp] theorem overlooked_type? {value : Option TypeRef} :
    (typeOutline? value).Overlooked m ↔ ∀ t ∈ value, t.outline.Overlooked m :=
  Outline.all_type?

@[simp] theorem overlooked_statement? {value : Option Statement} :
    (statementOutline? value).Overlooked m ↔ ∀ s ∈ value, s.outline.Overlooked m :=
  Outline.all_statement?

@[simp] theorem overlooked_statements? {value : Option (List Statement)} :
    (Outline.inOrder (statementOutlines? value)).Overlooked m ↔
      ∀ ss ∈ value, ∀ s ∈ ss, s.outline.Overlooked m :=
  Outline.all_statements?

/-- Keys and values of a dictionary are overlooked together. -/
theorem overlooked_entries {ks vs : List Outline} (h : (Outline.entries ks vs).Overlooked m) :
    (∀ o ∈ ks, o.Overlooked m) ∧ ∀ o ∈ vs, o.Overlooked m :=
  Outline.all_entries h

/-- The condition of a loop without one has no text. -/
theorem overlooked_endless : Language.endless.outline.Overlooked m := by
  have hnode : (Outline.node (.expression Language.endless) .nothing).Overlooked m :=
    Outline.overlooked_node.2 ⟨nofun, nofun⟩
  exact hnode

end

/-! ### Names -/

theorem mem_of_mem_segments {name segment : List Char} (hs : segment ∈ segments name) {c : Char}
    (hc : c ∈ segment) : c ∈ name := by
  induction name generalizing segment with
  | nil =>
    rw [segments, List.mem_singleton] at hs
    rw [hs] at hc
    cases hc
  | cons first rest ih =>
    rw [segments] at hs
    split at hs
    · rcases List.mem_cons.1 hs with rfl | hs
      · cases hc
      · exact List.mem_cons_of_mem _ (ih hs hc)
    · obtain ⟨head, more, hsegments⟩ := List.exists_cons_of_ne_nil (segments_ne_nil rest)
      rw [hsegments] at hs ih
      rcases List.mem_cons.1 hs with rfl | hs
      · rcases List.mem_cons.1 hc with rfl | hc
        · exact List.mem_cons_self
        · exact List.mem_cons_of_mem _ (ih List.mem_cons_self hc)
      · exact List.mem_cons_of_mem _ (ih (List.mem_cons_of_mem _ hs) hc)

theorem mem_of_mem_lastSegment {name : List Char} {c : Char} (hc : c ∈ lastSegment name) :
    c ∈ name :=
  mem_of_mem_segments (lastSegment_mem name) hc

theorem mem_joinDots {parts : List (List Char)} {c : Char} (hc : c ∈ joinDots parts) :
    c = '.' ∨ ∃ part ∈ parts, c ∈ part := by
  induction parts with
  | nil => cases hc
  | cons part more ih =>
    cases more with
    | nil => exact .inr ⟨part, List.mem_cons_self, hc⟩
    | cons next rest =>
      rw [joinDots, List.mem_append, List.mem_cons] at hc
      rcases hc with hc | hc | hc
      · exact .inr ⟨part, List.mem_cons_self, hc⟩
      · exact .inl hc
      · rcases ih hc with hdot | ⟨segment, hs, hc⟩
        · exact .inl hdot
        · exact .inr ⟨segment, List.mem_cons_of_mem _ hs, hc⟩

/-- The spelling of a name has the characters of the name, dots, and what escapes add. -/
theorem Naming.forall_resolve {n : Naming} {P : Char → Prop} (hdot : P '.')
    (hn : ∀ s c, c ∈ n.escape s → c ∈ s ∨ P c) {name : String} (h : ∀ c ∈ name.toList, P c)
    (spelling : Spelling) (qualification : Qualification) :
    ∀ c ∈ (n.resolve spelling qualification name).toList, P c := by
  obtain ⟨kept, hkept⟩ : ∃ kept, kept = if n.omitNamespaces ∧ qualification = .ordinary then
      lastSegment name.toList else name.toList := ⟨_, rfl⟩
  have hchars : ∀ c ∈ kept, P c := by
    intro c hc
    rw [hkept] at hc
    split at hc
    · exact h c (mem_of_mem_lastSegment hc)
    · exact h c hc
  cases spelling with
  | verbatim =>
    intro c hc
    rw [Naming.resolve, ← hkept, String.toList_ofList] at hc
    exact hchars c hc
  | escaped =>
    intro c hc
    rw [Naming.resolve, ← hkept, String.toList_ofList] at hc
    rcases mem_joinDots hc with rfl | ⟨part, hpart, hc⟩
    · exact hdot
    · obtain ⟨segment, hsegment, rfl⟩ := List.mem_map.1 hpart
      rw [Naming.segment] at hc
      split at hc
      · rcases hn segment c hc with hc | hc
        · exact hchars c (mem_of_mem_segments hsegment hc)
        · exact hc
      · exact hchars c (mem_of_mem_segments hsegment hc)

theorem Naming.overlooks_resolve {n : Naming}
    (hn : ∀ s c, c ∈ n.escape s → c ∈ s ∨ Reading.isIdle c = true) {m : Reading} {name : String}
    (h : m.Overlooks name) (spelling : Spelling) (qualification : Qualification) :
    m.Overlooks (n.resolve spelling qualification name) :=
  Naming.forall_resolve (m.overlooks_of_idle rfl)
    (fun s c hc => (hn s c hc).imp_right m.overlooks_of_idle) h spelling qualification

/-! ### Lower case -/

theorem Char.toNat_ofNat_of_valid {n : Nat} (h : n.isValidChar) : (Char.ofNat n).toNat = n := by
  unfold Char.ofNat
  rw [dif_pos h]
  rfl

/-- Small letters and what comes after the closing brace are idle. -/
theorem Reading.isIdle_ofNat {n : Nat} (h : 0x61 ≤ n ∧ n ≤ 0x7A ∨ 0x7E ≤ n) :
    isIdle (Char.ofNat n) = true := by
  by_cases hvalid : n.isValidChar
  · have hnat := Char.toNat_ofNat_of_valid hvalid
    have hne : ∀ d : Char, d.toNat < 0x61 ∨ d.toNat = 0x7B ∨ d.toNat = 0x7D →
        Char.ofNat n ≠ d := by
      rintro d hd rfl
      omega
    simp [isIdle, isOpening, isClosing, hne]
  · rw [Char.ofNat, dif_neg hvalid]
    rfl

theorem ofNat_ne_lineFeed {n : Nat} (h : 0x61 ≤ n) : Char.ofNat n ≠ '\n' := by
  by_cases hvalid : n.isValidChar
  · intro he
    have hnat := Char.toNat_ofNat_of_valid hvalid
    rw [he, show '\n'.toNat = 0x0A from rfl] at hnat
    omega
  · rw [Char.ofNat, dif_neg hvalid]
    decide

theorem lowercase_of_run {run : Nat × Nat × Nat × Nat} (h : run ∈ lowercaseRuns) :
    0x61 ≤ run.2.2.2 ∧ run.2.2.2 + (run.2.1 - run.1) ≤ 0x7A ∨ 0x7E ≤ run.2.2.2 := by
  have hall : (lowercaseRuns.all fun run => decide (0x61 ≤ run.2.2.2 ∧
      run.2.2.2 + (run.2.1 - run.1) ≤ 0x7A ∨ 0x7E ≤ run.2.2.2)) = true := by decide +kernel
  exact of_decide_eq_true (List.all_eq_true.1 hall run h)

/-- The lower case of a character is idle and no line feed, or the character itself. -/
theorem lowercase_cases {c d : Char} (hd : d ∈ lowercase c) :
    d = c ∨ Reading.isIdle d = true ∧ d ≠ '\n' := by
  unfold lowercase at hd
  split at hd
  · simp only [List.mem_cons, List.not_mem_nil, or_false] at hd
    rcases hd with rfl | rfl
    · exact .inr ⟨rfl, by decide⟩
    · exact .inr ⟨rfl, by decide⟩
  · split at hd
    · next first last stride image hfind =>
      have hrun := lowercase_of_run (List.mem_of_find?_eq_some hfind)
      have hhas := List.find?_some hfind
      simp only [CodeRun.has, Bool.and_eq_true, decide_eq_true_eq] at hhas
      dsimp only at hrun
      rw [List.mem_singleton.1 hd]
      exact .inr ⟨Reading.isIdle_ofNat (by omega), ofNat_ne_lineFeed (by omega)⟩
    · exact .inl (List.mem_singleton.1 hd)

theorem forall_lowercaseFirst {P : Char → Prop}
    (hP : ∀ d, Reading.isIdle d = true ∧ d ≠ '\n' → P d) {name : String}
    (h : ∀ c ∈ name.toList, P c) : ∀ c ∈ (lowercaseFirst name).toList, P c := by
  unfold lowercaseFirst
  split
  · exact h
  · next first rest hname =>
    have hfirst := h first (by simp [hname])
    have hrest : ∀ c ∈ rest, P c := fun c hc => h c (by simp [hname, hc])
    split
    · exact h
    · intro c hc
      rw [String.toList_ofList, List.mem_append] at hc
      rcases hc with hc | hc
      · rcases lowercase_cases hc with rfl | hc
        · exact hfirst
        · exact hP c hc
      · exact hrest c hc

theorem overlooks_lowercaseFirst {m : Reading} {name : String} (h : m.Overlooks name) :
    m.Overlooks (lowercaseFirst name) :=
  forall_lowercaseFirst (fun _ hd => m.overlooks_of_idle hd.1) h

/-! ### Numbers -/

theorem digitsBefore_lt {base : Nat} (hbase : 0 < base) (fuel n : Nat) {tail : List Nat}
    (htail : ∀ d ∈ tail, d < base) : ∀ d ∈ digitsBefore base fuel n tail, d < base := by
  induction fuel generalizing n tail with
  | zero => exact htail
  | succ fuel ih =>
    unfold digitsBefore
    split
    · next hn => exact List.forall_mem_cons.2 ⟨hn, htail⟩
    · exact ih _ (List.forall_mem_cons.2 ⟨Nat.mod_lt _ hbase, htail⟩)

theorem digits_lt {base : Nat} (hbase : 0 < base) (n : Nat) : ∀ d ∈ digits base n, d < base :=
  digitsBefore_lt hbase _ _ nofun

/-- A letter, a digit, or a mark in numbers. -/
def isNumeral (c : Char) : Bool := c.isAlphanum || c == '.' || c == '-'

theorem Reading.isIdle_of_isNumeral {c : Char} (h : isNumeral c = true) : isIdle c = true := by
  have hne : ∀ d : Char, isNumeral d = false → c ≠ d := by
    rintro d hd rfl
    rw [hd] at h
    cases h
  simp [isIdle, isOpening, isClosing, hne _ (show isNumeral '(' = false by decide),
    hne _ (show isNumeral '[' = false by decide), hne _ (show isNumeral '\x7b' = false by decide),
    hne _ (show isNumeral ')' = false by decide), hne _ (show isNumeral ']' = false by decide),
    hne _ (show isNumeral '\x7d' = false by decide), hne _ (show isNumeral '#' = false by decide)]

theorem isNumeral_upperDigit : ∀ d < 16, isNumeral (upperDigit d) = true := by decide

theorem isNumeral_lowerDigit : ∀ d < 16, isNumeral (lowerDigit d) = true := by decide

/-- A number is written in numerals. -/
theorem isNumeral_digits {base : Nat} (h : 0 < base ∧ base ≤ 16) {digit : Nat → Char}
    (hdigit : ∀ d < 16, isNumeral (digit d) = true) (n : Nat) :
    ((digits base n).map digit).all isNumeral = true := by
  rw [List.all_eq_true]
  intro c hc
  obtain ⟨d, hd, rfl⟩ := List.mem_map.1 hc
  have hlt := digits_lt h.1 n d hd
  exact hdigit d (by omega)

theorem isNumeral_positional (c : Nat) (e : Int) : (positional c e).all isNumeral = true := by
  have hzeros : ∀ n, (List.replicate n '0').all isNumeral = true := by
    intro n
    rw [List.all_replicate]
    split <;> rfl
  have hdigits : ((digits 10 c).map upperDigit).all isNumeral = true :=
    isNumeral_digits (by decide) isNumeral_upperDigit c
  have hpoint : isNumeral '.' = true := rfl
  unfold positional
  simp only
  split
  · rw [List.all_append, hdigits, hzeros]
    rfl
  · obtain ⟨padded, hpadded⟩ : ∃ padded, padded = List.replicate ((-e).toNat + 1 -
        ((digits 10 c).map upperDigit).length) '0' ++ (digits 10 c).map upperDigit := ⟨_, rfl⟩
    have hall : padded.all isNumeral = true := by
      rw [hpadded, List.all_append, hdigits, hzeros]
      rfl
    rw [← hpadded]
    rw [List.all_eq_true] at hall ⊢
    intro d hd
    simp only [List.mem_append, List.mem_cons] at hd
    rcases hd with hd | rfl | hd
    · exact hall d (List.mem_of_mem_take hd)
    · exact hpoint
    · exact hall d (List.mem_of_mem_drop hd)

namespace Brace

/-- An integer has numerals before and after its mark. -/
theorem forall_integerText {P : Char → Prop} (hP : ∀ c, isNumeral c = true → P c) {mark : String}
    (hmark : ∀ c ∈ mark.toList, P c) (value : Int) (base : Nat) :
    ∀ c ∈ (integerText mark value base).toList, P c := by
  have hused : 0 < (if base = 2 ∨ base = 8 ∨ base = 16 then base else 10) ∧
      (if base = 2 ∨ base = 8 ∨ base = 16 then base else 10) ≤ 16 := by
    split <;> omega
  have hdigits := isNumeral_digits hused isNumeral_upperDigit value.natAbs
  intro c hc
  simp only [integerText, String.toList_append, List.mem_append, String.toList_ofList] at hc
  rcases hc with (hc | hc) | hc
  · split at hc
    · rw [List.mem_singleton.1 hc]
      exact hP _ rfl
    · cases hc
  · exact hmark c hc
  · exact hP c (List.all_eq_true.1 hdigits c hc)

theorem isNumeral_floatText (value : Binary64) :
    (floatText value).toList.all isNumeral = true := by
  have hsign : (if value.isNegative then ['-'] else []).all isNumeral = true := by
    split <;> rfl
  have hdecimal : value.decimal.toList.all isNumeral = true := by
    unfold Binary64.decimal
    split
    · decide
    · simp only
      split
      · rw [String.toList_ofList, List.all_append, hsign]
        rfl
      · split
        · rw [String.toList_ofList, List.all_append, hsign]
          rfl
        · rw [String.toList_ofList, List.all_append, hsign, isNumeral_positional]
          rfl
  unfold floatText
  simp only
  split
  · exact hdecimal
  · rw [String.toList_append, List.all_append, hdecimal]
    rfl

theorem overlooks_integerText {m : Reading} {mark : String} (hmark : m.Overlooks mark)
    (value : Int) (base : Nat) : m.Overlooks (integerText mark value base) :=
  forall_integerText (fun _ hc => m.overlooks_of_idle (Reading.isIdle_of_isNumeral hc)) hmark
    value base

theorem overlooks_floatText {m : Reading} (value : Binary64) : m.Overlooks (floatText value) :=
  fun c hc => m.overlooks_of_idle
    (Reading.isIdle_of_isNumeral (List.all_eq_true.1 (isNumeral_floatText value) c hc))

end Brace

/-! ### Literals -/

namespace Quoted

variable {m : Reading} {quote c : Char}

theorem isIdle_fourDigits (n : Nat) : (fourDigits n).all Reading.isIdle = true := by
  have hdigit : ∀ k, Reading.isIdle (upperDigit (k % 16)) = true := fun k =>
    Reading.isIdle_of_isNumeral (isNumeral_upperDigit _ (Nat.mod_lt _ (by decide)))
  simp [fourDigits, hdigit]

/-- The number of a character stands between braces, or in no brackets at all. -/
theorem read_unicode (style : UnicodeEscape) (c : Char) (opened : List Char) :
    m.read opened ((unicode style c).filter isInk) = some opened := by
  cases style with
  | utf16 =>
    refine m.read_of_overlooks opened fun d hd => m.overlooks_of_idle ?_
    obtain ⟨unit, -, hd⟩ := List.mem_flatMap.1 (List.mem_filter.1 hd).1
    simp only [List.mem_cons] at hd
    rcases hd with rfl | rfl | hd
    · rfl
    · rfl
    · exact List.all_eq_true.1 (isIdle_fourDigits unit) d hd
  | braced =>
    have hdigits : m.read (m.enter '\x7b' opened)
        (((digits 16 c.toNat).map lowerDigit).filter isInk) = some (m.enter '\x7b' opened) := by
      refine m.read_of_overlooks _ fun d hd => m.overlooks_of_idle ?_
      have hall : ((digits 16 c.toNat).map lowerDigit).all isNumeral = true :=
        isNumeral_digits (by decide) isNumeral_lowerDigit c.toNat
      exact Reading.isIdle_of_isNumeral (List.all_eq_true.1 hall d (List.mem_filter.1 hd).1)
    have hclose : m.read (m.enter '\x7b' opened) ['\x7d'] = some opened := by simp
    have hbody := m.read_append _ hdigits hclose
    have hslash : Reading.isIdle '\\' = true := rfl
    have hletter : Reading.isIdle 'u' = true := rfl
    simpa [unicode, isInk, hslash, hletter] using hbody

/-- A character is written in idle characters, by its number, or as it is. -/
theorem escapeChar_cases (hquote : Reading.isIdle quote = true) (preserve : Bool)
    (style : UnicodeEscape) (c : Char) :
    (escapeChar quote preserve style c).all Reading.isIdle = true ∨
      escapeChar quote preserve style c = unicode style c ∨
      escapeChar quote preserve style c = [c] := by
  have hslash : Reading.isIdle '\\' = true := rfl
  unfold escapeChar
  split_ifs with _ _ _ _ _ hq
  · exact .inl rfl
  · exact .inl rfl
  · exact .inl rfl
  · exact .inl rfl
  · exact .inl rfl
  · exact .inl (by simp [hq, hquote, hslash])
  · exact .inr (.inl rfl)
  · exact .inr (.inr rfl)
  · exact .inr (.inl rfl)

theorem read_escapeChar (hquote : Reading.isIdle quote = true) (hc : m.overlooks c = true)
    (preserve : Bool) (style : UnicodeEscape) (opened : List Char) :
    m.read opened ((escapeChar quote preserve style c).filter isInk) = some opened := by
  rcases escapeChar_cases hquote preserve style c with hidle | hnumber | hself
  · refine m.read_of_overlooks opened fun d hd => m.overlooks_of_idle ?_
    exact List.all_eq_true.1 hidle d (List.mem_filter.1 hd).1
  · rw [hnumber]
    exact read_unicode style c opened
  · rw [hself]
    refine m.read_of_overlooks opened fun d hd => ?_
    rw [List.mem_singleton.1 (List.mem_filter.1 hd).1]
    exact hc

/-- A literal reads as nothing, if its contents are overlooked. -/
theorem closed_literal (hquote : Reading.isIdle quote = true) {s : List Char}
    (hs : ∀ c ∈ s, m.overlooks c = true) (preserve : Bool) (style : UnicodeEscape) :
    (Doc.text (literal quote preserve style s)).Closed m := by
  intro scope opened
  have hquotes : m.read opened ([quote].filter isInk) = some opened := by
    refine m.read_of_overlooks opened fun d hd => ?_
    rw [List.mem_singleton.1 (List.mem_filter.1 hd).1]
    exact m.overlooks_of_idle hquote
  have hcontents : m.read opened ((escape quote preserve style s).filter isInk) = some opened := by
    induction s with
    | nil => exact m.read_nil opened
    | cons c rest ih =>
      have hc := read_escapeChar hquote (hs c List.mem_cons_self) preserve style opened
      have hrest := ih fun d hd => hs d (List.mem_cons_of_mem _ hd)
      rw [escape_cons, List.filter_append]
      exact m.read_append _ hc hrest
  have hall := m.read_append _ (m.read_append _ hquotes hcontents) hquotes
  rw [← List.filter_append, ← List.filter_append] at hall
  rw [Doc.read_text, literal, String.toList_ofList]
  simpa using hall

end Quoted

end SourcePrinter
