import SourcePrinter.Proofs.Parts

/-! From the rules of a language to whole trees. The rules are given a context that follows the
outlines of the parts and follow the outline of the node; then the contexts of every depth do, and
the document of every request follows the outline of its tree. -/

namespace SourcePrinter

open Doc

/-- Each rule of a language, given a context that obeys, follows the outline of what it writes. -/
structure Language.Obeys (l : Language) (faults : Faults) : Prop where
  textual : l.hooks.Textual
  docComment : ∀ comment, (l.units.docComment l.hooks comment).Textual
  conditionStart : ∀ {c n} e scope, c.Obeys l faults →
    Follows l.hooks faults n ((l.units.conditionStart c e).events scope) e.outline
  conditionEnd : ∀ c, (l.units.conditionEnd c).Textual
  attributeLine : ∀ {c n} (a : Attribute) scope, c.Obeys l faults →
    Follows l.hooks faults n ((l.units.attributeLine c a).events scope)
      (.beside a.type.outline (.inOrder (argumentOutlines a.arguments)))
  enclose : ∀ c u (d : Doc) scope, (l.units.enclose c u d).events scope = d.events scope
  globals : ∀ {c n} gs scope, c.Obeys l faults →
    Follows l.hooks faults n ((l.units.globals c gs).events scope)
      (.inOrder (gs.map fun g => g.member.outline))
  expression : ∀ {c} e scope, c.Obeys l faults →
    Follows l.hooks faults (.expression e) ((l.expressionRule c e).events scope) e.form.outline
  typeRef : ∀ {c n} t scope, c.Obeys l faults →
    Follows l.hooks faults n ((l.typeRule c t).events scope) t.form.outline
  parameter : ∀ {c n} (p : Parameter) scope, c.Obeys l faults →
    Follows l.hooks faults n ((l.members.parameter c p).events scope)
      (.beside p.type.outline (expressionOutline? p.default))
  statement : ∀ {c n} s scope, c.Obeys l faults →
    Follows l.hooks faults n ((l.statementRule c s).events scope) s.form.outline
  member : ∀ {c} m scope, c.Obeys l faults →
    Follows l.hooks faults (.member m) ((l.memberRule c m).events scope) m.form.outline
  definition : ∀ {c n} t scope, c.Obeys l faults →
    Follows l.hooks faults n ((l.definitionRule c t).events scope) t.form.outline

/-- A view of a type reference has its form. -/
theorem TypeRef.form_view (t : TypeRef) (k : Nullability) : (t.view k).form = t.form := by
  unfold view
  split <;> rfl

namespace Language.Obeys

variable {l : Language} {faults : Faults} {c : Context} {n : Node} {scope : Option TypeScope}

/-! ### Nodes -/

/-- A guard is written beside what it guards. -/
theorem guarded (h : l.Obeys faults) (hc : c.Obeys l faults) {d : Doc} {o : Outline}
    (hd : Follows l.hooks faults n (d.events scope) o) (condition : Option Expression) :
    Follows l.hooks faults n ((l.guarded c condition d).events scope)
      (.beside (expressionOutline? condition) o) := by
  cases condition with
  | none => exact hd.right
  | some e =>
    simp only [Language.guarded, events_append, events_lineStart, (h.conditionEnd c).events,
      Events.done_append, Events.append_done]
    exact .beside (h.conditionStart e scope hc) hd

theorem preamble (h : l.Obeys faults) (hc : c.Obeys l faults) (info : DeclarationInfo) :
    Follows l.hooks faults n ((l.preamble c info).events scope) info.outline := by
  have hcomment : (whenSome info.comment l.docComment).events scope = .done := by
    refine events_whenSome (fun comment => ?_) info.comment
    rw [Language.docComment, events_append, (h.docComment comment).events]
    rfl
  rw [Language.preamble, events_append, hcomment, Events.done_append]
  refine .concat (fun a => ?_) info.attributes
  refine h.guarded hc ?_ a.condition
  rw [events_append, events_lineStart, Events.append_done]
  exact h.attributeLine a scope hc

theorem expressionNode (h : l.Obeys faults) (hc : c.Obeys l faults) (e : Expression) :
    (Node.expression e).Shown l.hooks faults e.form.outline
      ((l.expressionNode c e).events scope) :=
  .inr ⟨_, rfl, h.expression e scope hc⟩

/-- A type reference may be written with another nullability. -/
theorem typeNode (h : l.Obeys faults) (hc : c.Obeys l faults) {t inForce : TypeRef}
    (ht : inForce.form = t.form) :
    Follows l.hooks faults n ((l.typeNode c t inForce).events scope) t.outline := by
  rw [t.outline_eq, Language.typeNode, events_node]
  refine .node (m := .typeRef t) (.left ?_)
  rw [← ht]
  exact h.typeRef inForce scope hc

theorem parameterNode (h : l.Obeys faults) (hc : c.Obeys l faults) (p : Parameter) :
    Follows l.hooks faults n ((l.parameterNode c p).events scope) p.outline := by
  rw [p.outline_eq, Language.parameterNode, events_node]
  exact .node (m := .parameter p) (h.parameter p scope hc)

theorem statementNode (h : l.Obeys faults) (hc : c.Obeys l faults) (s : Statement) :
    Follows l.hooks faults n ((l.statementNode c s).events scope) s.outline := by
  rw [s.outline_eq, Language.statementNode, events_append, events_node, events_lineStart,
    Events.append_done]
  exact .node (m := .statement s) (h.statement s scope hc)

theorem bodyNode (h : l.Obeys faults) (hc : c.Obeys l faults) (s : Statement) :
    Follows l.hooks faults n ((l.bodyNode c s).events scope) s.outline := by
  unfold Language.bodyNode
  split
  · next statements hs =>
    rw [s.outline_eq, events_node, hs]
    exact .node (m := .statement s) (hc.statements statements)
  · exact h.statementNode hc s

theorem memberNode (h : l.Obeys faults) (hc : c.Obeys l faults) (m : Member) :
    Follows l.hooks faults n ((l.memberNode c m).events scope) m.outline := by
  rw [m.outline_eq, Language.memberNode]
  refine h.guarded hc ?_ m.info.condition
  rw [events_append, events_node, events_append, events_lineStart, Events.append_done]
  exact .node (m := .member m) (.beside (h.preamble hc m.info) (h.member m scope hc))

theorem definitionNode (h : l.Obeys faults) (hc : c.Obeys l faults) (t : TypeDefinition) :
    Follows l.hooks faults n ((l.definitionNode c t).events scope) t.outline := by
  rw [t.outline_eq, Language.definitionNode]
  refine h.guarded hc ?_ t.info.condition
  rw [events_append, events_node, events_append, events_lineStart, Events.append_done,
    events_inside]
  exact .node (m := .definition t) (.beside (h.preamble hc t.info) (h.definition t _ hc))

/-! ### Contexts and requests -/

/-- The contexts of every depth obey: one deeper writes each part by its rule. -/
theorem context (h : l.Obeys faults) (setting : Setting) (depth : Nat) :
    (l.context setting depth).Obeys l faults := by
  induction depth with
  | zero =>
    exact
      { language := rfl, remark := rfl, lineComment := rfl, docComment := rfl,
        textual := h.textual,
        shown := fun _ _ => .inl rfl, typeRef := fun _ _ => .nothing,
        typeRefAs := fun _ _ _ => .nothing, parameter := fun _ _ => .nothing,
        statement := fun _ _ => .nothing, body := fun _ _ => .nothing,
        member := fun _ _ => .nothing, typeDefinition := fun _ _ => .nothing }
  | succ depth ih =>
    exact
      { language := ih.language, remark := ih.remark,
        lineComment := ih.lineComment, docComment := ih.docComment,
        textual := h.textual,
        shown := fun e _ => h.expressionNode ih e,
        typeRef := fun _ _ => h.typeNode ih rfl,
        typeRefAs := fun k t _ => h.typeNode ih (TypeRef.form_view t k),
        parameter := fun p _ => h.parameterNode ih p,
        statement := fun s _ => h.statementNode ih s,
        body := fun s _ => h.bodyNode ih s,
        member := fun m _ => h.memberNode ih m,
        typeDefinition := fun t _ => h.definitionNode ih t }

/-- The types of a unit follow their outlines in order. -/
theorem typeList (hc : c.Obeys l faults) (first : Bool) (ts : List TypeDefinition) :
    Follows l.hooks faults n ((typeList c first ts).events scope)
      (.inOrder (ts.map TypeDefinition.outline)) := by
  induction ts generalizing first with
  | nil => exact .nothing
  | cons t more ih =>
    rw [Language.typeList, events_append, events_append, events_when rfl, Events.done_append]
    exact .before (hc.typeDefinition t scope) (ih false)

theorem importDoc (h : l.Obeys faults) (hc : c.Obeys l faults) (i : Import) :
    Follows l.hooks faults n ((l.importDoc c i).events scope) i.outline := by
  refine .alike (.beside_nothing _) (h.guarded hc ?_ i.condition)
  rw [events_append, (h.textual.importing _ i).events]
  exact .nothing

theorem unitDoc (h : l.Obeys faults) (setting : Setting) (u : CodeUnit) :
    Follows l.hooks faults n ((l.unitDoc setting u).events scope) u.outline := by
  have hc := h.context setting u.size
  have header : (l.fileHeader u).events scope = .done := by
    refine events_whenSome (fun comment => ?_) _
    rw [events_append, (Doc.textual_concat h.textual.lineComment comment.lines).events]
    rfl
  have hblank : (when (!u.imports.isEmpty) newline).events scope = .done := events_when rfl _
  rw [Language.unitDoc, events_node, Language.unitRule, events_append, events_append,
    events_append, header, hblank, Events.done_append, Events.append_done, h.enclose,
    events_append]
  exact .node (m := .unit u) (.beside (.concat (h.importDoc hc) u.imports)
    (.beside (h.globals u.globals scope hc) (typeList hc _ u.types)))

/-- The document of a request follows the outline of its tree. -/
theorem request (h : l.Obeys faults) (options : Options) (r : Request) :
    Follows l.hooks faults n ((r.document l options).events scope) r.outline := by
  cases r with
  | unit u definitionOnly => exact h.unitDoc _ u
  | definition t home definitionOnly => exact (h.context _ _).typeDefinition t scope
  | member m owner home definitionOnly =>
    cases owner with
    | none => exact (h.context _ _).member m scope
    | some t => exact (h.context _ _).member m _
  | parameter p home => exact (h.context _ _).parameter p scope
  | statement s home => exact (h.context _ _).statement s scope
  | statementText s => exact (h.context _ _).statement s scope
  | expressionText e => exact (h.context _ _).expression e

end Language.Obeys

end SourcePrinter
