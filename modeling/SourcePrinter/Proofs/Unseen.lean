import SourcePrinter.Proofs.Suspended

/-! Trees without spans. While a node is marked, no span is kept for it and for what lies below it,
however deep, and none that was kept is changed; afterwards everything is as before. The condition
under which a declaration is compiled is the exception: it is written before the node of the
declaration is entered, and keeps its spans. -/

namespace SourcePrinter

open Doc

namespace Doc

/-- Wherever the document stands, and whatever else is marked, it shows no other nodes while a node
is marked. -/
def Hides (key : NodeKey) (ks : List NodeKey) (d : Doc) : Prop :=
  ∀ scope marks, key ∈ marks → ∀ k ∈ ((d.events scope).recorded marks).labels, k ∈ ks

variable {key : NodeKey} {ks : List NodeKey} {d e : Doc}

theorem hides_node (key : NodeKey) (d : Doc) : (node key d).Hides key [] := by
  intro scope marks hkey k hk
  rw [recorded_node_of_mem _ _ hkey] at hk
  exact hk

theorem Hides.mono {ks' : List NodeKey} (h : d.Hides key ks) (hks : ∀ k ∈ ks, k ∈ ks') :
    d.Hides key ks' := fun scope marks hkey k hk => hks k (h scope marks hkey k hk)

theorem ShowsOnly.hides (h : d.ShowsOnly ks) (key : NodeKey) : d.Hides key ks :=
  fun scope marks _ => h scope marks

theorem Textual.hides (h : d.Textual) (key : NodeKey) : d.Hides key ks := by
  intro scope marks _ k hk
  rw [h.events] at hk
  cases hk

theorem hides_lineStart : lineStart.Hides key ks := Textual.hides (d := lineStart) trivial key

theorem Hides.append (h : d.Hides key ks) (h' : e.Hides key ks) : (d ++ e).Hides key ks := by
  intro scope marks hkey k hk
  rw [events_append, Events.recorded_append, Forest.labels_append] at hk
  exact (List.mem_append.1 hk).elim (h scope marks hkey k) (h' scope marks hkey k)

/-- Marks may nest; one of them is enough. -/
theorem Hides.foldr (h : d.Hides key ks) {marks : List NodeKey} (hkey : key ∈ marks)
    (scope : Option TypeScope) (synthetic : List NodeKey) :
    ∀ k ∈ (((marks.foldr Doc.synthetic d).events scope).recorded synthetic).labels, k ∈ ks := by
  -- What is marked inside stays marked, so the node may be marked at any of the levels.
  have hnest : ∀ (marks synthetic : List NodeKey), key ∈ marks ∨ key ∈ synthetic →
      ∀ k ∈ (((marks.foldr Doc.synthetic d).events scope).recorded synthetic).labels, k ∈ ks := by
    intro marks
    induction marks with
    | nil => exact fun synthetic hkey => h scope synthetic (hkey.resolve_left List.not_mem_nil)
    | cons mark more ih =>
      intro synthetic hkey k hk
      rw [List.foldr_cons, recorded_synthetic] at hk
      refine ih (synthetic.insert mark) ?_ k hk
      rw [List.mem_insert_iff]
      rcases hkey with hkey | hkey
      · exact (List.mem_cons.1 hkey).elim (fun heq => .inr (.inl heq)) .inl
      · exact .inr (.inr hkey)
  exact hnest marks synthetic (.inl hkey)

end Doc

/-! ### Trees -/

/-- The condition under which a declaration is compiled, which is written around its node. -/
def Subject.guard : Subject → Outline
  | definition t => expressionOutline? t.info.condition
  | member m => expressionOutline? m.info.condition
  | _ => .nothing

namespace Language

variable {l : Language} {faults : Faults} {c : Context} {key : NodeKey} {d : Doc}

/-- Of a guarded node that is marked, only the condition is shown. -/
theorem Obeys.guarded_hides (h : l.Obeys faults) (hc : c.Obeys l faults) (hd : d.Hides key [])
    (condition : Option Expression) :
    (l.guarded c condition d).Hides key (expressionOutline? condition).keys := by
  cases condition with
  | none => exact hd
  | some e =>
    have hstart : (l.units.conditionStart c e).Hides key e.outline.keys :=
      (showsOnly_of_follows (n := .expression e) fun scope => h.conditionStart e scope hc).hides key
    have hbody : d.Hides key e.outline.keys := hd.mono nofun
    have hline : lineStart.Hides key e.outline.keys := hides_lineStart
    have hend : (l.units.conditionEnd c).Hides key e.outline.keys :=
      (h.conditionEnd c).hides key
    exact (((((hline.append hstart).append hline).append hbody).append hline).append hend).append
      hline

/-- Of a tree that is marked, only the condition of a declaration is shown. -/
theorem Obeys.treeDoc_hides (h : l.Obeys faults) (setting : Setting) (manner : Manner)
    {s : Subject} (hkey : s.key? = some key) :
    (s.treeDoc l setting manner).Hides key s.guard.keys := by
  have hline : ∀ {d : Doc}, d.Hides key [] → (d ++ lineStart).Hides key [] :=
    fun hd => hd.append hides_lineStart
  cases s with
  | importing i => cases hkey
  | expression e => cases e; cases hkey; exact hides_node _ _
  | parameter p => cases p; cases hkey; exact hides_node _ _
  | unit u => cases hkey; exact hides_node _ _
  | typeReference t =>
    cases t
    cases hkey
    simp only [Subject.treeDoc]
    split <;> exact hides_node _ _
  | statement s =>
    cases s with | mk id form => _
    cases hkey
    simp only [Subject.treeDoc]
    split
    -- As the body of another statement, a block does not end its line.
    · show (l.bodyNode (l.context setting form.size) ⟨id, form⟩).Hides _ []
      unfold Language.bodyNode
      split
      · exact hides_node _ _
      · exact hline (hides_node _ _)
    · exact hline (hides_node _ _)
  | definition t =>
    cases t
    cases hkey
    exact h.guarded_hides (h.context setting _) (hline (hides_node _ _)) _
  | member m =>
    cases m
    cases hkey
    exact h.guarded_hides (h.context setting _) (hline (hides_node _ _)) _

end Language

/-- Rendering a tree without spans, in any state and inside any other marks, with or without an
error: no span is kept or changed for the root of the tree and for any node below it, nor for any
other node, but for those of the condition under which the root is compiled; and marks, recording
and surrounding types are afterwards as before. -/
theorem Language.Known.unseen_trees {l : Language} (hl : l.Known) (options : Options)
    (setting : Setting) (manner : Manner) {s : Subject} {key : NodeKey} (hkey : s.key? = some key)
    {marks : List NodeKey} (hmarked : key ∈ marks) (column : Nat) (p : Pass) :
    let o := (marks.foldr Doc.synthetic (s.treeDoc l setting manner)).run options column p
    (∀ k, k ∉ s.guard.keys → o.pass.spans.get? k = p.spans.get? k) ∧
    (s.guard.keys = [] → o.pass.spans = p.spans) ∧
    (o.pass.synthetic = p.synthetic ∧ o.pass.recording = p.recording ∧
      o.pass.scopes = p.scopes) := by
  intro o
  obtain ⟨faults, hobeys⟩ := hl.obeys
  have hshown := (hobeys.treeDoc_hides setting manner hkey).foldr hmarked p.scope p.synthetic
  obtain ⟨hscopes, hsynthetic, hrecording⟩ := run_surroundings options
    (marks.foldr Doc.synthetic (s.treeDoc l setting manner)) column p
  refine ⟨fun k hk => get?_run_of_not_mem fun hmem => hk (hshown k hmem), fun hguard => ?_,
    hsynthetic, hrecording, hscopes⟩
  refine spans_run_of_nil fun _ => List.eq_nil_iff_forall_not_mem.2 fun k hk => ?_
  have hmem := hshown k hk
  rw [hguard] at hmem
  cases hmem

namespace TypeDefinition

/-- A class under a condition, with an attribute and a method under conditions of their own. -/
def probe : TypeDefinition :=
  let condition (id : NodeId) : Option Expression := some ⟨id, .raw "DEBUG"⟩
  let mark : Attribute := ⟨.ofForm 1 (.named ⟨"Serializable", none, []⟩), [], condition 2⟩
  let run : Member := ⟨1, "Run", ⟨.everyone, condition 3, [], none⟩, .none, false,
    .method ⟨[], [], none, [], false, false, false⟩⟩
  ⟨1, "Probe", ⟨.everyone, condition 1, [mark], none⟩,
    .classType ⟨[], [], [], [run], false, false, false, false⟩⟩

/-- The class rendered without spans, from the first state. -/
def probeUnseen : Outcome :=
  let doc := (Subject.definition probe).treeDoc .csharp (.of .initial none false)
    ⟨true, false, none⟩
  ([probe.key].foldr Doc.synthetic doc).run .initial 0 (.initial .initial)

theorem probe_is_unseen :
    Language.csharp.Known ∧ (Subject.definition probe).key? = some probe.key ∧
      probe.key ∈ [probe.key] ∧
      (∀ k ∈ probe.outline.keys, k ≠ ⟨.expression, 1⟩ → probeUnseen.pass.spans.get? k = none) ∧
      probeUnseen.pass.recording = true := by
  have hl : Language.csharp.Known := .dialect .csharp
  have hmarked : probe.key ∈ [probe.key] := List.mem_singleton_self _
  obtain ⟨hkept, -, -, hrecording, -⟩ := hl.unseen_trees .initial (.of .initial none false)
    ⟨true, false, none⟩ (s := .definition probe) rfl hmarked 0 (.initial .initial)
  refine ⟨hl, rfl, hmarked, fun k _ hk => ?_, hrecording⟩
  exact (hkept k fun hmem => hk (List.mem_singleton.1 hmem)).trans (SpanTable.get?_empty k)

/-- The condition of the class is below it and has a span all the same. -/
theorem probe_condition_is_seen :
    (⟨.expression, 1⟩ : NodeKey) ∈ probe.outline.keys ∧ probeUnseen.failure = none ∧
      (Pass.initial .initial).spans.get? ⟨.expression, 1⟩ = none ∧
      probeUnseen.pass.spans.get? ⟨.expression, 1⟩ = some ⟨⟨0, 4, 4, 4⟩, ⟨0, 9, 9, 9⟩⟩ :=
  ⟨by decide, by decide +kernel, rfl, by decide +kernel⟩

end TypeDefinition

end SourcePrinter
