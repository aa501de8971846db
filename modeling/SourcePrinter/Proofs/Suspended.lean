import SourcePrinter.Script
import SourcePrinter.Proofs.Marks

/-! What runs do to the spans kept so far, also where they fail. A run keeps spans of the nodes that
its events show and leaves every other span as it was; none is kept while recording is suspended. A
mark on a node that would not have been shown makes no difference. What a run writes depends on
neither. -/

namespace SourcePrinter

namespace Pass

variable (p : Pass)

/-- The state with other marks. -/
def withMarks (marks : List NodeKey) : Pass := { p with synthetic := marks }

/-- A node that is left keeps its span or none. -/
theorem spans_leave (v : Visit) (failed : Bool) :
    (p.leave v failed).spans = p.spans.insert v.key (p.spanOf v) ∧
        v.recording = true ∧ v.suspended = false ∨
      (p.leave v failed).spans = p.spans := by
  simp only [leave]
  split
  · next h =>
    simp only [Bool.and_eq_true, Bool.not_eq_true'] at h
    exact .inl ⟨rfl, h.1.2, h.2⟩
  · exact .inr rfl

end Pass

namespace Doc

/-! ### What documents show -/

section Shown

variable (scope : Option TypeScope) (marks : List NodeKey)

theorem recorded_node_of_mem {key : NodeKey} (h : key ∈ marks) (body : Doc) :
    ((node key body).events scope).recorded marks = .nil := by
  rw [events, Events.recorded, if_pos h, Events.recorded]

theorem recorded_node_of_not_mem {key : NodeKey} (h : key ∉ marks) (body : Doc) :
    ((node key body).events scope).recorded marks =
      .node key ((body.events scope).recorded marks) .nil := by
  rw [events, Events.recorded, if_neg h, Events.recorded]

@[simp] theorem recorded_synthetic (key : NodeKey) (body : Doc) :
    ((synthetic key body).events scope).recorded marks =
      (body.events scope).recorded (marks.insert key) := by
  rw [events, Events.recorded, Events.recorded, Forest.append_nil]

@[simp] theorem recorded_unsupported (gap : Gap) (remark : Doc) :
    ((unsupported gap remark).events scope).recorded marks =
      (remark.events scope).recorded marks := by
  rw [events, Events.recorded, Events.recorded, Forest.append_nil]

end Shown

/-! ### Spans that are kept -/

variable {options : Options} {d : Doc} {column : Nat} {p : Pass}

/-- Inside a node spans are kept if they are kept around it and the node is not marked. -/
theorem recording_enter {key : NodeKey} :
    (p.enter key).2.recording = true ↔ p.recording = true ∧ key ∉ p.synthetic := by
  simp [Pass.enter]

/-- What holds of a table and itself, is passed on, and holds where the span of a node that the
events show is kept, holds of the tables before and after a run. -/
theorem run_spans_induction {R : SpanTable → SpanTable → Prop} (refl : ∀ t, R t t)
    (trans : ∀ {t u v}, R t u → R u v → R t v) (options : Options) (d : Doc) (column : Nat)
    (p : Pass)
    (insert : p.recording = true → ∀ k ∈ ((d.events p.scope).recorded p.synthetic).labels,
      ∀ t s, R t (t.insert k s)) :
    R p.spans (d.run options column p).pass.spans := by
  induction d generalizing column p with
  | empty | text | newline | lineStart | typeGap | separator | malformed => exact refl _
  | append first second ih ih' =>
    obtain ⟨-, hmarks, hrecording⟩ := run_surroundings options first column p
    simp only [events, Events.recorded_append, Forest.labels_append, List.mem_append] at insert
    have hfirst := ih column p fun hr k hk => insert hr k (.inl hk)
    simp only [run, Outcome.andThen]
    split
    · refine trans hfirst (ih' column _ fun hr k hk => ?_)
      rw [run_scope, hmarks] at hk
      exact insert (hrecording ▸ hr) k (.inr hk)
    · exact hfirst
  | nested body ih =>
    simp only [run, Outcome.onDone]
    split <;> exact ih column (p.mapWriter (·.indent)) insert
  | aligned body ih =>
    simp only [run, Outcome.onDone]
    split <;> exact ih p.writer.beginList.2.1 { p with writer := p.writer.beginList.1 } insert
  | node key body ih =>
    -- Inside a node that is not shown nothing is kept.
    have hbody : R p.spans (body.run options column (p.enter key).2).pass.spans := by
      refine ih column (p.enter key).2 fun hr k hk => ?_
      rw [recording_enter] at hr
      refine insert hr.1 k ?_
      rw [recorded_node_of_not_mem _ _ hr.2]
      exact List.mem_cons_of_mem _ (List.mem_append_left _ hk)
    simp only [run, Outcome.mapPass]
    rcases Pass.spans_leave _ (p.enter key).1 _ with ⟨hspans, hr, hk⟩ | hspans
    · rw [hspans]
      refine trans hbody (insert hr key ?_ _ _)
      have hk : key ∉ p.synthetic := by simpa [Pass.enter] using hk
      rw [recorded_node_of_not_mem _ _ hk]
      exact List.mem_cons_self
    · rw [hspans]
      exact hbody
  | synthetic key body ih =>
    have hbody := ih column (p.markSynthetic key) fun hr k hk => by
      rw [Pass.scope_markSynthetic, Pass.synthetic_markSynthetic_insert] at hk
      refine insert (by simpa using hr) k ?_
      rw [recorded_synthetic]
      exact hk
    simpa [run, Outcome.mapPass] using hbody
  | inside inner body ih => exact ih column (p.pushScope inner) insert
  | perScope body ih => exact ih p.scope column p insert
  | unsupported gap remark ih =>
    simp only [run]
    split
    · exact refl _
    · refine ih column p fun hr k hk => insert hr k ?_
      rw [recorded_unsupported]
      exact hk

/-- A run leaves the span of a node that the events do not show as it was. -/
theorem get?_run_of_not_mem {k : NodeKey}
    (hk : k ∉ ((d.events p.scope).recorded p.synthetic).labels) :
    (d.run options column p).pass.spans.get? k = p.spans.get? k := by
  refine run_spans_induction (R := fun t u => u.get? k = t.get? k) (fun _ => rfl)
    (fun h h' => h'.trans h) options d column p fun _ key hkey t s => ?_
  exact SpanTable.get?_insert_of_ne t s fun h => hk (h ▸ hkey)

/-- A run that shows no node leaves the spans as they were. -/
theorem spans_run_of_nil (h : p.recording = true →
      ((d.events p.scope).recorded p.synthetic).labels = []) :
    (d.run options column p).pass.spans = p.spans := by
  refine (run_spans_induction (R := Eq) (fun _ => rfl) Eq.trans options d column p
    fun hr k hk => ?_).symm
  rw [h hr] at hk
  cases hk

end Doc

/-! ### Marks that make no difference -/

namespace Outcome

variable (o : Outcome)

theorem andThen_mapPass (f : Pass → Pass) (g : Pass → Outcome)
    (hg : o.failure = none → g (f o.pass) = (g o.pass).mapPass f) :
    (o.mapPass f).andThen g = (o.andThen g).mapPass f := by
  unfold andThen mapPass
  cases h : o.failure with
  | none => exact hg h
  | some e => simp [h]

theorem onDone_mapPass {f g : Pass → Pass} (hg : ∀ p, g (f p) = f (g p)) :
    (o.mapPass f).onDone g = (o.onDone g).mapPass f := by
  unfold onDone mapPass
  cases h : o.failure with
  | none => simp [hg]
  | some e => simp [h]

end Outcome

namespace Pass

variable (p : Pass) {key : NodeKey} {marks : List NodeKey}

theorem markSynthetic_withMarks (marks : List NodeKey) (key : NodeKey) :
    (p.withMarks marks).markSynthetic key =
      (p.markSynthetic key).withMarks (marks.insert key) := by
  unfold markSynthetic withMarks List.insert
  split <;> split <;> rfl

theorem unmarkSynthetic_withMarks (marks : List NodeKey) (key : NodeKey) (before : Bool) :
    (p.withMarks (marks.insert key)).unmarkSynthetic key (marks.contains key) =
      (p.unmarkSynthetic key before).withMarks marks := by
  have hother : (p.unmarkSynthetic key before).withMarks marks = p.withMarks marks := by
    unfold unmarkSynthetic
    split <;> rfl
  rw [hother]
  by_cases hk : key ∈ marks
  · simp [unmarkSynthetic, hk]
  · simp [unmarkSynthetic, withMarks, hk]

/-- A mark makes no difference to a node that has it already, or is not the one marked, or is
entered while recording is suspended. -/
theorem enter_withMarks {k : NodeKey}
    (h : p.recording = true → (k ∈ marks ↔ k ∈ p.synthetic)) :
    ((p.withMarks marks).enter k).2 = (p.enter k).2.withMarks marks ∧
      ∀ q failed, (Pass.withMarks q marks).leave ((p.withMarks marks).enter k).1 failed =
        (q.leave (p.enter k).1 failed).withMarks marks := by
  cases hr : p.recording with
  | false => simp [enter, withMarks, leave, spanOf, hr]
  | true =>
    have hk := h hr
    by_cases hm : k ∈ p.synthetic
    · simp [enter, withMarks, leave, spanOf, hm, hk.2 hm]
    · simp [enter, withMarks, leave, spanOf, hm, mt hk.1 hm]

end Pass

namespace Doc

/-- A run goes on as it did when a node is marked that it would not have shown. -/
theorem run_withMarks (options : Options) (d : Doc) (column : Nat) (p : Pass) {key : NodeKey}
    {marks : List NodeKey} (hmarks : ∀ k, k ∈ marks ↔ k = key ∨ k ∈ p.synthetic)
    (h : p.recording = true → key ∉ ((d.events p.scope).recorded p.synthetic).labels) :
    d.run options column (p.withMarks marks) =
      (d.run options column p).mapPass (·.withMarks marks) := by
  induction d generalizing column p marks with
  | empty | text | newline | lineStart | typeGap | separator | malformed => rfl
  | append first second ih ih' =>
    obtain ⟨-, hsynthetic, hrecording⟩ := run_surroundings options first column p
    simp only [events, Events.recorded_append, Forest.labels_append, List.mem_append, not_or] at h
    rw [run, run, ih column p hmarks fun hr => (h hr).1]
    refine Outcome.andThen_mapPass _ _ _ fun _ => ih' column _ ?_ fun hr => ?_
    · rw [hsynthetic]
      exact hmarks
    · rw [run_scope, hsynthetic]
      exact (h (hrecording ▸ hr)).2
  | nested body ih =>
    have hbody := ih column (p.mapWriter (·.indent)) hmarks h
    have hrun : (nested body).run options column (p.withMarks marks) =
        (body.run options column ((p.mapWriter (·.indent)).withMarks marks)).onDone
          (·.mapWriter (·.dedent)) := rfl
    rw [hrun, hbody]
    exact Outcome.onDone_mapPass _ fun _ => rfl
  | aligned body ih =>
    have hbody := ih p.writer.beginList.2.1 { p with writer := p.writer.beginList.1 } hmarks h
    have hrun : (aligned body).run options column (p.withMarks marks) =
        (body.run options p.writer.beginList.2.1
          (Pass.withMarks { p with writer := p.writer.beginList.1 } marks)).onDone
          (·.mapWriter (·.endList p.writer.beginList.2.2)) := rfl
    rw [hrun, hbody]
    exact Outcome.onDone_mapPass _ fun _ => rfl
  | node k body ih =>
    -- The mark is on no node that would be shown, so the node is entered as it is without the mark.
    have hsame : p.recording = true → (k ∈ marks ↔ k ∈ p.synthetic) := by
      intro hr
      rw [hmarks]
      refine ⟨fun hk => hk.elim (fun hk => ?_) id, .inr⟩
      refine Decidable.byContradiction fun hshown => h hr ?_
      rw [recorded_node_of_not_mem _ _ hshown, ← hk]
      exact List.mem_cons_self
    obtain ⟨henter, hleave⟩ := p.enter_withMarks hsame
    have hbody := ih column (p.enter k).2 hmarks fun hr hkey => by
      rw [recording_enter] at hr
      refine h hr.1 ?_
      rw [recorded_node_of_not_mem _ _ hr.2]
      exact List.mem_cons_of_mem _ (List.mem_append_left _ hkey)
    simp only [run, henter, hbody, Outcome.mapPass, hleave]
  | synthetic k body ih =>
    have hmarked : ∀ j, j ∈ marks.insert k ↔ j = key ∨ j ∈ (p.markSynthetic k).synthetic := by
      intro j
      rw [Pass.synthetic_markSynthetic_insert, List.mem_insert_iff, List.mem_insert_iff, hmarks]
      exact or_left_comm
    have hbody := ih column (p.markSynthetic k) hmarked fun hr => by
      rw [Pass.scope_markSynthetic, Pass.synthetic_markSynthetic_insert]
      have hp := h (by simpa using hr)
      rwa [recorded_synthetic] at hp
    rw [run, Pass.markSynthetic_withMarks, hbody]
    simp only [run, Outcome.mapPass]
    exact congrArg (Outcome.mk · _) (Pass.unmarkSynthetic_withMarks _ marks k _)
  | inside inner body ih =>
    have hbody := ih column (p.pushScope inner) hmarks h
    have hrun : (inside inner body).run options column (p.withMarks marks) =
        (body.run options column ((p.pushScope inner).withMarks marks)).mapPass Pass.popScope := rfl
    rw [hrun, hbody]
    rfl
  | perScope body ih => exact ih p.scope column p hmarks h
  | unsupported gap remark ih =>
    simp only [run]
    split
    · rfl
    · refine ih column p hmarks fun hr => ?_
      have hp := h hr
      rwa [recorded_unsupported] at hp

/-- A mark on a node that would not have been shown can be left out. -/
theorem run_synthetic_of_not_shown {options : Options} {d : Doc} {column : Nat} {p : Pass}
    {key : NodeKey} (h : p.recording = true →
      key ∉ ((d.events p.scope).recorded p.synthetic).labels) :
    (synthetic key d).run options column p = d.run options column p := by
  have hmarked : p.markSynthetic key = p.withMarks (p.synthetic.insert key) := by
    rw [← p.synthetic_markSynthetic_insert key]
    unfold Pass.markSynthetic Pass.withMarks
    split <;> rfl
  have hmarks : ∀ k, k ∈ p.synthetic.insert key ↔ k = key ∨ k ∈ p.synthetic :=
    fun _ => List.mem_insert_iff
  have hrun := run_withMarks options d column p hmarks h
  obtain ⟨-, hsynthetic, -⟩ := run_surroundings options d column p
  rw [run, hmarked, hrun]
  simp only [Outcome.mapPass]
  refine congrArg (Outcome.mk · _) ?_
  rw [Pass.unmarkSynthetic_withMarks _ p.synthetic key true, ← hsynthetic]
  rfl

end Doc

/-! ### Floors -/

/-- What is done to the writer at the end of a run does not touch the floor. -/
theorem Outcome.floor_onDone_mapWriter (o : Outcome) (f : Writer → Writer) :
    (o.onDone (·.mapWriter f)).pass.floor = o.pass.floor := by
  unfold onDone
  split <;> rfl

/-- Two ends of renderings agree on the error, the writer and the floor. -/
structure Outcome.Even (o o' : Outcome) : Prop extends o.Alike o' where
  floor : o.pass.floor = o'.pass.floor

/-- Nodes that are entered alike are left alike, whichever they are. -/
theorem Outcome.Even.leave {o o' : Outcome} {p p' : Pass} (h : o.Even o')
    (hw : p.writer = p'.writer) (hf : p.floor = p'.floor) (key key' : NodeKey) :
    (o.mapPass (·.leave (p.enter key).1 o.failure.isSome)).Even
      (o'.mapPass (·.leave (p'.enter key').1 o'.failure.isSome)) := by
  have hspan : o.pass.spanOf (p.enter key).1 = o'.pass.spanOf (p'.enter key').1 := by
    unfold Pass.spanOf Pass.enter
    rw [h.writer, h.floor, hw]
  refine ⟨⟨h.failure, h.writer⟩, ?_⟩
  show some _ = some _
  rw [hspan]
  simp only [Pass.enter, hf]

namespace Doc

/-- The floor of a run, like what it writes, does not depend on the spans and on what is kept. -/
theorem run_floor (options : Options) (d : Doc) (column : Nat) {p p' : Pass}
    (hw : p.writer = p'.writer) (hs : p.scope = p'.scope) (hf : p.floor = p'.floor) :
    (d.run options column p).pass.floor = (d.run options column p').pass.floor := by
  -- On the document. The writers are known to agree by now, which gives each node equal spans.
  induction d generalizing column p p' with
  | empty | text | newline | lineStart | typeGap | separator | malformed => exact hf
  | append first second ih ih' =>
    have hfirst := run_alike options first column hw hs
    have hfloor := ih column hw hs hf
    simp only [run, Outcome.andThen, ← hfirst.failure]
    split
    · refine ih' column hfirst.writer ?_ hfloor
      rw [run_scope, run_scope, hs]
    · exact hfloor
  | nested body ih =>
    have hbody : (body.run options column (p.mapWriter (·.indent))).pass.floor =
        (body.run options column (p'.mapWriter (·.indent))).pass.floor :=
      ih column (congrArg (·.indent) hw) hs hf
    simp only [run, Outcome.floor_onDone_mapWriter]
    exact hbody
  | aligned body ih =>
    have hbody : (body.run options p'.writer.beginList.2.1
          { p with writer := p'.writer.beginList.1 }).pass.floor =
        (body.run options p'.writer.beginList.2.1
          { p' with writer := p'.writer.beginList.1 }).pass.floor := ih _ rfl hs hf
    simp only [run, Outcome.floor_onDone_mapWriter, hw]
    exact hbody
  | node key body ih =>
    have hbody : (body.run options column (p.enter key).2).Even
        (body.run options column (p'.enter key).2) :=
      ⟨run_alike options body column hw hs, ih column hw hs rfl⟩
    exact (hbody.leave hw hf key key).floor
  | synthetic key body ih =>
    have hbody : (body.run options column (p.markSynthetic key)).pass.floor =
        (body.run options column (p'.markSynthetic key)).pass.floor :=
      ih column (by simpa) (by simpa) (by simpa)
    simpa [run, Outcome.mapPass] using hbody
  | inside inner body ih =>
    have hbody : (body.run options column (p.pushScope inner)).pass.floor =
        (body.run options column (p'.pushScope inner)).pass.floor := ih column hw rfl hf
    exact hbody
  | perScope body ih =>
    simp only [run, hs]
    exact ih _ column hw hs hf
  | unsupported gap remark ih =>
    simp only [run]
    split
    · exact hf
    · exact ih column hw hs hf

theorem run_even (options : Options) (d : Doc) (column : Nat) {p p' : Pass}
    (hw : p.writer = p'.writer) (hs : p.scope = p'.scope) (hf : p.floor = p'.floor) :
    (d.run options column p).Even (d.run options column p') :=
  ⟨run_alike options d column hw hs, run_floor options d column hw hs hf⟩

end Doc

/-! ### Nodes that are shown -/

/-- The document shows no other nodes, wherever it stands and whatever is marked. -/
def Doc.ShowsOnly (ks : List NodeKey) (d : Doc) : Prop :=
  ∀ scope marks, ∀ k ∈ ((d.events scope).recorded marks).labels, k ∈ ks

/-- A document whose events follow an outline shows nodes of the outline. -/
theorem Doc.showsOnly_of_follows {hooks : Hooks} {faults : Faults} {n : Node} {d : Doc}
    {o : Outline} (h : ∀ scope, Follows hooks faults n (d.events scope) o) :
    d.ShowsOnly o.keys := fun scope marks _ hk => ((h scope).fits marks).mem hk

/-- The outline of the tree. -/
def Subject.outline : Subject → Outline
  | expression e => e.outline
  | statement s => s.outline
  | typeReference t => t.outline
  | definition t => t.outline
  | member m => m.outline
  | parameter p => p.outline
  | importing i => i.outline
  | unit u => u.outline

namespace Language

variable {l : Language} {faults : Faults} {n : Node} {scope : Option TypeScope}

/-- The document of a tree follows the outline of the tree, whichever way it is rendered. -/
theorem Obeys.treeDoc (h : l.Obeys faults) (setting : Setting) (manner : Manner) (s : Subject) :
    Follows l.hooks faults n ((s.treeDoc l setting manner).events scope) s.outline := by
  cases s with
  | expression e => exact (h.context _ _).expression e
  | statement s =>
    simp only [Subject.treeDoc]
    split
    · exact (h.context _ _).body s scope
    · exact (h.context _ _).statement s scope
  | typeReference t =>
    simp only [Subject.treeDoc]
    split
    · exact (h.context _ _).typeRefAs _ t scope
    · exact (h.context _ _).typeRef t scope
  | definition t => exact (h.context _ _).typeDefinition t scope
  | member m => exact (h.context _ _).member m scope
  | parameter p => exact (h.context _ _).parameter p scope
  | importing i => exact h.importDoc (h.context _ _) i
  | unit u => exact h.unitDoc setting u

/-- The document of a tree shows nodes of the tree only. -/
theorem Known.showsOnly_treeDoc (h : l.Known) (setting : Setting) (manner : Manner) (s : Subject) :
    (s.treeDoc l setting manner).ShowsOnly s.outline.keys := by
  obtain ⟨faults, hl⟩ := h.obeys
  exact Doc.showsOnly_of_follows (n := .expression endless) fun scope => hl.treeDoc setting manner s

end Language

end SourcePrinter
