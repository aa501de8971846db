import SourcePrinter.Proofs.Follows

/-! What a rule is given: a context whose documents follow the outlines of the parts. For such a
context the events of lists and of gaps follow outlines too. -/

namespace SourcePrinter

open Doc

/-- The events of a node that is rendered, or of none. -/
def Node.Shown (hooks : Hooks) (faults : Faults) (m : Node) (o : Outline) (e : Events) : Prop :=
  e = .done ∨ ∃ inner, e = .node m.key inner .done ∧ Follows hooks faults m inner o

namespace Node.Shown

variable {hooks : Hooks} {faults : Faults} {m n t : Node} {o x : Outline} {e : Events}

theorem follows (h : m.Shown hooks faults o e) : Follows hooks faults n e (.node m o) := by
  rcases h with rfl | ⟨inner, rfl, hf⟩
  · exact .nothing
  · exact .node hf

/-- A type reference may be replaced by a node that it carries. -/
theorem carried (h : m.Shown hooks faults o e) :
    Follows hooks faults n (.hidden m.key e .done)
      (.node t (.beside x (.carried (.node m o)))) := by
  rcases h with rfl | ⟨inner, rfl, hf⟩
  · exact .idle
  · exact .carried hf

end Node.Shown

/-- A context with the words of a language. -/
structure Context.Speaks (l : Language) (c : Context) : Prop where
  language : c.language = l.hooks.name
  remark : c.remark = l.hooks.inlineComment
  lineComment : c.lineComment = l.hooks.lineComment
  docComment : c.docComment = l.docComment

/-- A context for a language: the documents of the parts follow outlines. -/
structure Context.Obeys (l : Language) (faults : Faults) (c : Context) : Prop
    extends c.Speaks l where
  textual : l.hooks.Textual
  shown : ∀ e scope,
    (Node.expression e).Shown l.hooks faults e.form.outline ((c.expression e).events scope)
  typeRef : ∀ {n} t scope, Follows l.hooks faults n ((c.typeRef t).events scope) t.outline
  typeRefAs : ∀ {n} k t scope, Follows l.hooks faults n ((c.typeRefAs k t).events scope) t.outline
  parameter : ∀ {n} p scope, Follows l.hooks faults n ((c.parameter p).events scope) p.outline
  statement : ∀ {n} s scope, Follows l.hooks faults n ((c.statement s).events scope) s.outline
  body : ∀ {n} s scope, Follows l.hooks faults n ((c.body s).events scope) s.outline
  member : ∀ {n} m scope, Follows l.hooks faults n ((c.member m).events scope) m.outline
  typeDefinition : ∀ {n} t scope,
    Follows l.hooks faults n ((c.typeDefinition t).events scope) t.outline

/-! ### Lists of members -/

/-- Members in order, with a document between any two. -/
structure Context.Lists (c : Context) (gap : Member → Member → Doc) (doc : List Member → Doc) :
    Prop where
  none : doc [] = .empty
  one : ∀ m, doc [m] = c.member m
  more : ∀ m next rest,
    doc (m :: next :: rest) = c.member m ++ gap m next ++ doc (next :: rest)

namespace Context.Lists

variable {c : Context} {gap : Member → Member → Doc} {doc : List Member → Doc}

/-- Along the members of a list. -/
theorem induct {P : List Member → Doc → Prop} (h : c.Lists gap doc) (hnone : P [] .empty)
    (hone : ∀ m, P [m] (c.member m))
    (hmore : ∀ m next rest, P (next :: rest) (doc (next :: rest)) →
      P (m :: next :: rest) (c.member m ++ gap m next ++ doc (next :: rest)))
    (ms : List Member) : P ms (doc ms) := by
  induction ms with
  | nil =>
    rw [h.none]
    exact hnone
  | cons m more ih =>
    cases more with
    | nil =>
      rw [h.one]
      exact hone m
    | cons next rest =>
      rw [h.more]
      exact hmore m next rest ih

/-- Members under a change that no member and nothing between two of them shows. -/
theorem map_congr {R : Doc → Doc → Prop} {f : Member → Member} (h : c.Lists gap doc)
    (hrefl : ∀ d, R d d)
    (happend : ∀ first first' second second',
      R first first' → R second second' → R (first ++ second) (first' ++ second'))
    (hgap : ∀ m next, gap (f m) (f next) = gap m next)
    (hf : ∀ m, R (c.member (f m)) (c.member m)) (ms : List Member) :
    R (doc (ms.map f)) (doc ms) := by
  refine h.induct (P := fun ms d => R (doc (ms.map f)) d) ?_ (fun m => ?_)
    (fun m next rest ih => ?_) ms
  · rw [List.map_nil, h.none]
    exact hrefl _
  · rw [List.map_cons, List.map_nil, h.one]
    exact hf m
  · rw [List.map_cons, List.map_cons, h.more, hgap]
    exact happend _ _ _ _ (happend _ _ _ _ (hf m) (hrefl _)) ih

end Context.Lists

/-! ### Lists and gaps -/

namespace Follows

variable {hooks : Hooks} {faults : Faults} {n : Node} {scope : Option TypeScope} {α : Type}

/-- Documents in order follow the outlines of a list. -/
theorem concat {doc : α → Doc} {outline : α → Outline}
    (h : ∀ a, Follows hooks faults n ((doc a).events scope) (outline a)) (items : List α) :
    Follows hooks faults n ((Doc.concat (items.map doc)).events scope)
      (.inOrder (items.map outline)) := by
  induction items with
  | nil => exact .nothing
  | cons a more ih => exact .before (h a) ih

/-- Text may stand before a part. -/
theorem after_text {t d : Doc} {o : Outline} (ht : t.events scope = .done)
    (h : Follows hooks faults n (d.events scope) o) :
    Follows hooks faults n ((t ++ d).events scope) o := by
  rw [events_append, ht, Events.done_append]
  exact h

/-- Text may stand after a part. -/
theorem before_text {d t : Doc} {o : Outline} (ht : t.events scope = .done)
    (h : Follows hooks faults n (d.events scope) o) :
    Follows hooks faults n ((d ++ t).events scope) o := by
  rw [events_append, ht, Events.append_done]
  exact h

end Follows

namespace Context.Obeys

variable {l : Language} {faults : Faults} {c : Context} {n : Node} {scope : Option TypeScope}

theorem expression (h : c.Obeys l faults) (e : Expression) :
    Follows l.hooks faults n ((c.expression e).events scope) e.outline := by
  rw [e.outline_eq]
  exact (h.shown e scope).follows

/-- A gap takes the place of any part. -/
theorem unsupported (h : c.Obeys l faults) {construct : List Char} {o : Outline}
    (hc : (construct.all fun c => c != '*' && c != '\n') = true) :
    Follows l.hooks faults n ((c.unsupported (String.ofList construct)).events scope) o := by
  obtain ⟨g, hg⟩ : ∃ g : Gap, g = ⟨c.language, String.ofList construct, none⟩ := ⟨_, rfl⟩
  have he : (c.unsupported (String.ofList construct)).events scope =
      .gap g (l.hooks.inlineComment g.message) ((l.hooks.inlineComment g.message).events scope)
        .done := by
    rw [hg, ← h.remark]
    rfl
  rw [he, (h.textual.inlineComment _).events scope]
  exact .gap (hg ▸ h.language) (hg ▸ ⟨.of_chars hc, nofun⟩)

/-- A comment has no nodes. -/
theorem comment (h : c.Obeys l faults) (x : Comment) {o : Outline} :
    Follows l.hooks faults n ((Doc.concat (x.lines.map c.lineComment)).events scope) o := by
  rw [h.lineComment, (Doc.textual_concat h.textual.lineComment x.lines).events]
  exact .nothing

theorem statements (h : c.Obeys l faults) (ss : List Statement) :
    Follows l.hooks faults n ((c.statements ss).events scope)
      (.inOrder (statementOutlines ss)) := by
  rw [Context.statements, statementOutlines_eq]
  exact .concat (fun s => h.statement s scope) ss

end Context.Obeys

end SourcePrinter
