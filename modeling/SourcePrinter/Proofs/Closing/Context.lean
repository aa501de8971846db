import SourcePrinter.Proofs.Policy
import SourcePrinter.Proofs.Wording

/-! Contexts whose parts are closed: a rule that asks such a context for the parts of a node with
overlooked texts gets documents that a reading passes over. Names, remarks and lists in it are
closed too. -/

namespace SourcePrinter

open Doc

/-- A context for C# or Swift whose parts are closed, as far as they are no declarations. -/
structure Context.Closes (m : Reading) (c : Context) : Prop where
  language : c.language = "C#" ∨ c.language = "Swift"
  remark : c.remark = Brace.inlineComment
  lineComment : c.lineComment = Brace.lineComment
  docComment : ∀ comment, c.docComment comment = Brace.docLines comment.lines ++ lineStart
  resolve : ∀ {name spelling qualification}, m.Overlooks name →
    m.Overlooks (c.naming.resolve spelling qualification name)
  part : ∀ p : Part, p.IsCode → p.outline.Overlooked m → (p.doc c).Closed m

attribute [local simp] isInk isOpening isClosing Reading.isIdle

namespace Context.Closes

variable {m : Reading} {c : Context} {name : String}

/-! ### Parts -/

section

variable (h : c.Closes m)

include h

theorem expression {e : Expression} (ho : e.outline.Overlooked m) : (c.expression e).Closed m :=
  h.part (.expression e) trivial ho

theorem typeRef {t : TypeRef} (ho : t.outline.Overlooked m) : (c.typeRef t).Closed m :=
  h.part (.typeRef t) trivial ho

theorem typeRefAs {t : TypeRef} (ho : t.outline.Overlooked m) (n : Nullability) :
    (c.typeRefAs n t).Closed m :=
  h.part (.typeRefAs n t) trivial ho

theorem parameter {p : Parameter} (ho : p.outline.Overlooked m) : (c.parameter p).Closed m :=
  h.part (.parameter p) trivial ho

theorem statement {s : Statement} (ho : s.outline.Overlooked m) : (c.statement s).Closed m :=
  h.part (.statement s) trivial ho

theorem body {s : Statement} (ho : s.outline.Overlooked m) : (c.body s).Closed m :=
  h.part (.body s) trivial ho

theorem expressions {es : List Expression} (ho : ∀ e ∈ es, e.outline.Overlooked m) :
    (c.expressions es).Closed m :=
  .commaList fun e he => h.expression (ho e he)

theorem typeRefs {ts : List TypeRef} (ho : ∀ t ∈ ts, t.outline.Overlooked m) :
    (c.typeRefs ts).Closed m :=
  .commaList fun t ht => h.typeRef (ho t ht)

theorem statements {ss : List Statement} (ho : ∀ s ∈ ss, s.outline.Overlooked m) :
    (c.statements ss).Closed m :=
  .concat fun s hs => h.statement (ho s hs)

/-- A value that may be missing, after words. -/
theorem valueAfter {word : String} (hw : m.Overlooks word) {value : Option Expression}
    (ho : (expressionOutline? value).Overlooked m) :
    (whenSome value fun e => text word ++ c.expression e).Closed m := by
  refine .whenSome fun e he => ?_
  exact .append (.text hw) (h.expression (overlooked_expression?.1 ho e he))

/-- A type that may be missing, after words. -/
theorem typeAfter {word : String} (hw : m.Overlooks word) {type : Option TypeRef}
    (ho : (typeOutline? type).Overlooked m) :
    (whenSome type fun t => text word ++ c.typeRef t).Closed m := by
  refine .whenSome fun t ht => ?_
  exact .append (.text hw) (h.typeRef (overlooked_type?.1 ho t ht))

/-! ### Names and comments -/

theorem identifier (hn : m.Overlooks name) : (c.identifier name).Closed m := .text (h.resolve hn)

theorem qualified (hn : m.Overlooks name) : (c.qualified name).Closed m := .text (h.resolve hn)

theorem verbatim (hn : m.Overlooks name) : (c.verbatim name).Closed m := .text (h.resolve hn)

theorem typeName {n : NamedType} (hn : m.Overlooks n.name)
    (hs : ∀ space ∈ n.namespaceName, m.Overlooks space) : (c.typeName n).Closed m := by
  have hfull : m.Overlooks n.fullName := by
    unfold NamedType.fullName
    split
    · next space hspace =>
      split
      · exact hn
      · exact ((hs space hspace).append (m.overlooks_of_chars rfl)).append hn
    · exact hn
  unfold Context.typeName
  split
  · refine h.identifier ?_
    split
    · exact hn
    · exact hfull
  · exact h.identifier hfull

theorem comment {lines : List String} (hl : ∀ s ∈ lines, m.Overlooks s) :
    (Doc.concat (lines.map c.lineComment)).Closed m := by
  rw [h.lineComment]
  refine .concat fun s hs => .line ?_
  split
  · exact m.overlooks_of_chars rfl
  · exact .append (m.overlooks_of_chars rfl) (hl s hs)

theorem documentation {comment : Comment} (hl : ∀ s ∈ comment.lines, m.Overlooks s) :
    (c.docComment comment).Closed m := by
  rw [h.docComment]
  refine .append (.concat fun s hs => .line ?_) fun _ _ => rfl
  split
  · exact m.overlooks_of_chars rfl
  · exact .append (m.overlooks_of_chars rfl) (hl s hs)

/-- The comment on a declaration, if there is one. -/
theorem documentation? {comment : Option Comment}
    (hl : ∀ s ∈ Comment.texts comment, m.Overlooks s) :
    (whenSome comment c.docComment).Closed m := by
  refine .whenSome fun x hx => h.documentation fun s hs => hl s ?_
  exact List.mem_flatMap.2 ⟨x, Option.mem_toList.2 hx, hs⟩

/-! ### Gaps -/

/-- The remark on a gap has one pair of brackets at most, around the detail. -/
theorem lacking {construct : String} {detail : Option String} (hp : Plain construct)
    (hc : m.Overlooks construct) (hd : ∀ s ∈ detail, Plain s ∧ m.Overlooks s) :
    (c.unsupported construct detail).Closed m := by
  obtain ⟨g, hg⟩ : ∃ g : Gap, g = ⟨c.language, construct, detail⟩ := ⟨_, rfl⟩
  have hplain : Plain g.message := by
    have hgap : g.Plain := hg ▸ ⟨hp, fun s hs => (hd s hs).1⟩
    refine hgap.message ?_
    rw [hg]
    rcases h.language with hl | hl
    · exact hl ▸ .of_chars (by decide)
    · exact hl ▸ .of_chars (by decide)
  have hmessage : ∀ opened, m.read opened (g.message.toList.filter isInk) = some opened := by
    intro opened
    have hconstruct := hc.read_append
    have hdetail := fun s hs => (hd s hs).2.read_append
    rw [hg]
    rcases h.language with hl | hl
    · cases detail with
      | none => simp [Gap.message, hl, hconstruct]
      | some s => simp [Gap.message, hl, hconstruct, hdetail s rfl]
    · cases detail with
      | none => simp [Gap.message, hl, hconstruct]
      | some s => simp [Gap.message, hl, hconstruct, hdetail s rfl]
  have he : c.unsupported construct detail = .unsupported g (Brace.inlineComment g.message) := by
    rw [hg, ← h.remark]
    rfl
  have hclosers : Brace.spaceClosers g.message.toList = g.message.toList :=
    Brace.spaceClosers_of_plain _ fun hm => (hplain _ hm).1 rfl
  intro scope opened
  rw [he, Doc.read_unsupported, Brace.inlineComment, hclosers, String.ofList_toList]
  simp [hmessage]

theorem unsupported {construct : List Char}
    (hp : (construct.all fun c => c != '*' && c != '\n') = true)
    (hc : construct.all Reading.isIdle = true) :
    (c.unsupported (String.ofList construct)).Closed m :=
  h.lacking (.of_chars hp) (m.overlooks_of_chars hc) nofun

theorem unsupported_detail {construct : List Char} {detail : String}
    (hp : (construct.all fun c => c != '*' && c != '\n') = true)
    (hc : construct.all Reading.isIdle = true) (hd : Plain detail ∧ m.Overlooks detail) :
    (c.unsupported (String.ofList construct) (some detail)).Closed m :=
  h.lacking (.of_chars hp) (m.overlooks_of_chars hc) fun _ hs => Option.some.inj hs ▸ hd

end

end Context.Closes

end SourcePrinter
