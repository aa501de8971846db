import SourcePrinter.Session
import SourcePrinter.Proofs.Follows
import SourcePrinter.Proofs.Growth

/-! The runs of documents that come to their end, with the visits of the nodes for which they keep
spans. The relation has one rule for each step of a run, so that what holds of every run is proved
rule by rule. -/

namespace SourcePrinter

/-- The visit of a node: what was remembered when it was entered, the writer then, and the state
when it is left. -/
structure Visited where
  visit : Visit
  before : Writer
  left : Pass

namespace Visited

/-- The node. -/
def key (v : Visited) : NodeKey := v.visit.key

/-- The span of the node. -/
def span (v : Visited) : Span := v.left.spanOf v.visit

end Visited

/-! Marks change nothing but the marks. -/

namespace Pass

variable (p : Pass) (key : NodeKey) (marked : Bool)

@[simp] theorem writer_markSynthetic : (p.markSynthetic key).writer = p.writer := by
  unfold markSynthetic; split <;> rfl

theorem synthetic_markSynthetic_insert :
    (p.markSynthetic key).synthetic = p.synthetic.insert key := by
  rw [synthetic_markSynthetic]
  unfold List.insert
  simp

@[simp] theorem floor_markSynthetic : (p.markSynthetic key).floor = p.floor := by
  unfold markSynthetic; split <;> rfl

@[simp] theorem spans_markSynthetic : (p.markSynthetic key).spans = p.spans := by
  unfold markSynthetic; split <;> rfl

@[simp] theorem writer_unmarkSynthetic : (p.unmarkSynthetic key marked).writer = p.writer := by
  unfold unmarkSynthetic; split <;> rfl

@[simp] theorem floor_unmarkSynthetic : (p.unmarkSynthetic key marked).floor = p.floor := by
  unfold unmarkSynthetic; split <;> rfl

@[simp] theorem spans_unmarkSynthetic : (p.unmarkSynthetic key marked).spans = p.spans := by
  unfold unmarkSynthetic; split <;> rfl

end Pass

namespace Doc

/-- A run of a document takes one state to another, and makes visits that are kept. -/
inductive Runs (options : Options) : Doc → Nat → Pass → Forest Visited → Pass → Prop where
  | empty {column : Nat} {p : Pass} : Runs options .empty column p .nil p
  | append {first second : Doc} {column : Nat} {p q r : Pass} {f g : Forest Visited} :
    Runs options first column p f q → Runs options second column q g r →
    Runs options (.append first second) column p (f ++ g) r
  | text {s : String} {column : Nat} {p : Pass} :
    Runs options (.text s) column p .nil (p.mapWriter (·.write s))
  | newline {column : Nat} {p : Pass} :
    Runs options .newline column p .nil (p.mapWriter (·.newline))
  | lineStart {column : Nat} {p : Pass} :
    Runs options .lineStart column p .nil (p.mapWriter (·.ensureLineStart))
  | typeGap {column : Nat} {p : Pass} :
    Runs options .typeGap column p .nil (p.mapWriter (·.blankLines options.typeGap))
  | nested {body : Doc} {column : Nat} {p q : Pass} {f : Forest Visited} :
    Runs options body column (p.mapWriter (·.indent)) f q →
    Runs options (.nested body) column p f (q.mapWriter (·.dedent))
  | aligned {body : Doc} {column : Nat} {p q : Pass} {f : Forest Visited} :
    Runs options body p.writer.beginList.2.1 (p.mapWriter fun w => w.beginList.1) f q →
    Runs options (.aligned body) column p f (q.mapWriter (·.endList p.writer.beginList.2.2))
  | separator {s : String} {column : Nat} {p : Pass} :
    Runs options (.separator s) column p .nil
      (p.mapWriter fun w => (w.writeSeparator s options.wrapColumn column).1)
  | node {key : NodeKey} {body : Doc} {column : Nat} {p q : Pass} {f : Forest Visited} :
    p.recording = true → key ∉ p.synthetic → Runs options body column (p.enter key).2 f q →
    Runs options (.node key body) column p (.node ⟨(p.enter key).1, p.writer, q⟩ f .nil)
      (q.leave (p.enter key).1 false)
  /-- A node without a span: nothing inside it has one. -/
  | unseen {key : NodeKey} {body : Doc} {column : Nat} {p q : Pass} {f : Forest Visited} :
    ¬(p.recording = true ∧ key ∉ p.synthetic) → Runs options body column (p.enter key).2 f q →
    Runs options (.node key body) column p .nil (q.leave (p.enter key).1 false)
  | synthetic {key : NodeKey} {body : Doc} {column : Nat} {p q : Pass} {f : Forest Visited} :
    Runs options body column (p.markSynthetic key) f q →
    Runs options (.synthetic key body) column p f
      (q.unmarkSynthetic key (p.synthetic.contains key))
  | inside {scope : TypeScope} {body : Doc} {column : Nat} {p q : Pass} {f : Forest Visited} :
    Runs options body column (p.pushScope scope) f q →
    Runs options (.inside scope body) column p f q.popScope
  | perScope {body : Option TypeScope → Doc} {column : Nat} {p q : Pass} {f : Forest Visited} :
    Runs options (body p.scope) column p f q → Runs options (.perScope body) column p f q
  /-- Where gaps are no errors, the remark is written. -/
  | unsupported {gap : Gap} {remark : Doc} {column : Nat} {p q : Pass} {f : Forest Visited} :
    options.strict = false → Runs options remark column p f q →
    Runs options (.unsupported gap remark) column p f q

variable {options : Options} {d : Doc} {column : Nat} {p q : Pass} {f : Forest Visited}

/-- Every step of the relation is a step of the run. -/
theorem Runs.run_eq (h : Runs options d column p f q) : d.run options column p = .done q := by
  induction h with
  | empty | text | newline | lineStart | typeGap | separator => rfl
  | append _ _ ih ih' =>
    rw [run, ih]
    exact ih'
  | nested _ ih | aligned _ ih =>
    simp only [Pass.mapWriter] at ih
    simp only [run, Pass.mapWriter, ih]
    rfl
  | node _ _ _ ih | unseen _ _ ih =>
    simp only [run, ih]
    rfl
  | synthetic _ ih | inside _ ih =>
    simp only [run, ih]
    rfl
  | perScope _ ih =>
    rw [run]
    exact ih
  | unsupported hs _ ih =>
    rw [run, hs]
    exact ih

/-- A run that does not fail is one of the relation. -/
theorem runs_of_done (d : Doc) (column : Nat) (p : Pass)
    (h : (d.run options column p).failure = none) :
    ∃ f, Runs options d column p f (d.run options column p).pass := by
  -- On the document. Where the whole does not fail, no part of it has failed.
  induction d generalizing column p with
  | empty => exact ⟨_, .empty⟩
  | text s => exact ⟨_, .text⟩
  | newline => exact ⟨_, .newline⟩
  | lineStart => exact ⟨_, .lineStart⟩
  | typeGap => exact ⟨_, .typeGap⟩
  | separator s => exact ⟨_, .separator⟩
  | append first second ih ih' =>
    simp only [run, Outcome.andThen] at h ⊢
    cases h1 : (first.run options column p).failure with
    | some e => rw [h1] at h; exact absurd h (by simp [h1])
    | none =>
      rw [h1] at h
      obtain ⟨f, hf⟩ := ih column p h1
      obtain ⟨g, hg⟩ := ih' column _ h
      exact ⟨_, .append hf hg⟩
  | nested body ih =>
    simp only [run, Outcome.onDone] at h ⊢
    cases h1 : (body.run options column (p.mapWriter (·.indent))).failure with
    | some e => rw [h1] at h; exact absurd h (by simp [h1])
    | none =>
      obtain ⟨f, hf⟩ := ih column _ h1
      exact ⟨_, .nested hf⟩
  | aligned body ih =>
    simp only [run, Outcome.onDone] at h ⊢
    cases h1 : (body.run options p.writer.beginList.2.1
        { p with writer := p.writer.beginList.1 }).failure with
    | some e => rw [h1] at h; exact absurd h (by simp [h1])
    | none =>
      obtain ⟨f, hf⟩ := ih _ _ h1
      exact ⟨_, .aligned hf⟩
  | node key body ih =>
    have h1 : (body.run options column (p.enter key).2).failure = none := h
    obtain ⟨f, hf⟩ := ih column _ h1
    simp only [run, Outcome.mapPass, h1]
    by_cases hk : p.recording = true ∧ key ∉ p.synthetic
    · exact ⟨_, .node hk.1 hk.2 hf⟩
    · exact ⟨_, .unseen hk hf⟩
  | synthetic key body ih =>
    obtain ⟨f, hf⟩ := ih column _ h
    exact ⟨_, .synthetic hf⟩
  | inside scope body ih =>
    obtain ⟨f, hf⟩ := ih column _ h
    exact ⟨_, .inside hf⟩
  | perScope body ih =>
    obtain ⟨f, hf⟩ := ih _ column p h
    exact ⟨_, .perScope hf⟩
  | unsupported gap remark ih =>
    cases hs : options.strict with
    | true => simp [run, hs] at h
    | false =>
      simp only [run, hs, Bool.false_eq_true, if_false] at h ⊢
      obtain ⟨f, hf⟩ := ih column p h
      exact ⟨_, .unsupported hs hf⟩
  | malformed detail => cases h

/-- A run only adds to the text. -/
theorem Runs.grows (h : Runs options d column p f q) :
    ∃ added, p.writer.Grows added q.writer := by
  induction h with
  | empty => exact ⟨[], .refl _⟩
  | append _ _ ih ih' =>
    obtain ⟨a, ha⟩ := ih
    obtain ⟨b, hb⟩ := ih'
    exact ⟨a ++ b, ha.trans hb⟩
  | text => exact Writer.writeChars_grows _ _
  | newline => exact ⟨_, Writer.newline_grows _⟩
  | lineStart => exact Writer.ensureLineStart_grows _
  | typeGap => exact Writer.blankLines_grows _ _
  | nested _ ih =>
    obtain ⟨a, ha⟩ := ih
    exact ⟨a, ha.dedent⟩
  | aligned _ ih =>
    obtain ⟨a, ha⟩ := ih
    exact ⟨_, ((Writer.beginList_grows _).trans ha).trans (Writer.endList_grows _ _)⟩
  | separator => exact Writer.writeSeparator_grows _ _ _ _
  | node _ _ _ ih | unseen _ _ ih => exact ih
  | synthetic _ ih => simpa using ih
  | inside _ ih | perScope _ ih | unsupported _ _ ih => exact ih

/-- What surrounds the place is at the end of a run as it was. -/
theorem Runs.surroundings (h : Runs options d column p f q) :
    q.scope = p.scope ∧ q.synthetic = p.synthetic ∧ q.recording = p.recording := by
  have hs := run_surroundings options d column p
  simp only [h.run_eq, Outcome.done] at hs
  refine ⟨?_, hs.2⟩
  rw [Pass.scope, hs.1, Pass.scope]

/-- Without recording no visits are kept. -/
theorem Runs.nil_of_not_recording (h : Runs options d column p f q) (hp : p.recording = false) :
    f = .nil := by
  induction h with
  | empty | text | newline | lineStart | typeGap | separator | unseen => rfl
  | append h _ ih ih' => rw [ih hp, ih' (h.surroundings.2.2.trans hp), Forest.nil_append]
  | node hr => rw [hr] at hp; cases hp
  | synthetic _ ih => exact ih (by simpa using hp)
  | nested _ ih | aligned _ ih | inside _ ih | perScope _ ih | unsupported _ _ ih => exact ih hp

/-- The visits that are kept are those of the nodes that the events show. -/
theorem Runs.keys_eq (h : Runs options d column p f q) (hp : p.recording = true) :
    f.map Visited.key = (d.events p.scope).recorded p.synthetic := by
  induction h with
  | empty | text | newline | lineStart | typeGap | separator => rfl
  | append h _ ih ih' =>
    obtain ⟨h1, h2, h3⟩ := h.surroundings
    have hg := ih' (h3.trans hp)
    rw [h1, h2] at hg
    rw [Forest.map_append, ih hp, hg]
    exact (Events.recorded_append _ _ _).symm
  | nested _ ih | aligned _ ih => exact ih hp
  | @node key body column p q f hr hk _ ih =>
    have hi : f.map Visited.key = (body.events p.scope).recorded p.synthetic := by
      refine ih ?_
      simp [Pass.enter, hr, hk]
    rw [Forest.map, hi, events, Events.recorded, if_neg hk]
    rfl
  | @unseen key body column p q f hn _ _ =>
    -- Spans are kept here, so it is for its mark that the node has none.
    have hk : key ∈ p.synthetic := Decidable.byContradiction fun hk => hn ⟨hp, hk⟩
    rw [events, Events.recorded, if_pos hk]
    rfl
  | @synthetic key body column p q f _ ih =>
    have hi := ih (by simpa using hp)
    rw [Pass.scope_markSynthetic, Pass.synthetic_markSynthetic_insert] at hi
    rw [hi, events, Events.recorded, Events.recorded, Forest.append_nil]
  | inside _ ih => exact ih hp
  | perScope _ ih => exact ih hp
  | unsupported _ _ ih =>
    rw [events, Events.recorded, Events.recorded, Forest.append_nil]
    exact ih hp

end Doc

/-! ### The table of spans -/

/-- Keeps the spans of visits, each when its node is left. -/
def Forest.record : Forest Visited → SpanTable → SpanTable
  | nil, t => t
  | node v inner rest, t => rest.record ((inner.record t).insert v.key v.span)

theorem Forest.record_append (f g : Forest Visited) (t : SpanTable) :
    (f ++ g).record t = g.record (f.record t) := by
  induction f generalizing t with
  | nil => rfl
  | node v inner rest _ ih => exact ih _

/-- A span in the table is the span of a visit of its node, or was there before. -/
theorem Forest.get?_record {f : Forest Visited} {t : SpanTable} {k : NodeKey} {s : Span}
    (h : (f.record t).get? k = some s) :
    (∃ v ∈ f.labels, v.key = k ∧ v.span = s) ∨ t.get? k = some s := by
  induction f generalizing t with
  | nil => exact .inr h
  | node v inner rest ih ih' =>
    simp only [labels, List.mem_cons, List.mem_append]
    rcases ih' h with ⟨u, hu, hk⟩ | h
    · exact .inl ⟨u, .inr (.inr hu), hk⟩
    · by_cases hv : k = v.key
      · subst hv
        rw [SpanTable.get?_insert_self] at h
        exact .inl ⟨v, .inl rfl, rfl, Option.some.inj h⟩
      · rw [SpanTable.get?_insert_of_ne _ _ hv] at h
        rcases ih h with ⟨u, hu, hk⟩ | h
        · exact .inl ⟨u, .inr (.inl hu), hk⟩
        · exact .inr h

/-- The table has a span for each visit, and for what it had one before. -/
theorem Forest.isSome_record (f : Forest Visited) (t : SpanTable) (k : NodeKey) :
    ((f.record t).get? k).isSome ↔ k ∈ (f.map Visited.key).labels ∨ (t.get? k).isSome := by
  induction f generalizing t with
  | nil => simp [record, map, labels]
  | node v inner rest ih ih' =>
    simp only [record, ih', map, labels, List.mem_cons, List.mem_append]
    by_cases hv : k = v.key
    · subst hv
      simp
    · rw [SpanTable.get?_insert_of_ne _ _ hv, ih]
      simp only [hv, false_or]
      exact or_left_comm.trans or_assoc.symm

namespace Doc

variable {options : Options} {d : Doc} {column : Nat} {p q : Pass} {f : Forest Visited}

/-- A run keeps the spans of its visits. -/
theorem Runs.spans_eq (h : Runs options d column p f q) : q.spans = f.record p.spans := by
  induction h with
  | empty | text | newline | lineStart | typeGap | separator => rfl
  | append _ _ ih ih' => rw [ih', ih, Forest.record_append]
  | nested _ ih | aligned _ ih | inside _ ih | perScope _ ih | unsupported _ _ ih => exact ih
  | @node key body column p q f hr hk _ ih =>
    have hs : (q.leave (p.enter key).1 false).spans =
        q.spans.insert key (q.spanOf (p.enter key).1) := by
      simp [Pass.leave, Pass.enter, hr, hk]
    rw [hs, ih]
    rfl
  | @unseen key body column p q f hn h ih =>
    have hr : (p.enter key).2.recording = false := by
      simpa [Pass.enter] using hn
    have hs : (q.leave (p.enter key).1 false).spans = q.spans := by
      have hv : ((p.enter key).1.recording && !(p.enter key).1.suspended) = false := hr
      simp only [Pass.leave, Bool.not_false, Bool.true_and, hv, Bool.false_eq_true, if_false]
    rw [hs, ih, h.nil_of_not_recording hr]
    rfl
  | synthetic _ ih => simpa using ih

theorem render_eq (d : Doc) (options : Options) : d.render options =
    match (d.run options 0 (.initial options)).failure with
    | none => .ok ⟨(d.run options 0 (.initial options)).pass.writer.text,
        (d.run options 0 (.initial options)).pass.spans⟩
    | some e => .error e := rfl

/-- A rendering ends with an error exactly if the events of its document do. -/
theorem render_eq_error {e : RenderError} :
    d.render options = .error e ↔ (d.events none).failure options.strict = some e := by
  have hf := run_failure options d 0 (.initial options)
  rw [render_eq, show d.events none = d.events (Pass.initial options).scope from rfl, ← hf]
  split
  · next h => simp [h]
  · next h => simp [h]

theorem Runs.render_eq (h : Runs options d 0 (.initial options) f q) :
    d.render options = .ok ⟨q.writer.text, q.spans⟩ := by
  rw [Doc.render_eq, h.run_eq]
  rfl

/-- A rendering that comes to its end is a run from the first state. -/
theorem runs_of_render {d : Doc} {out : Rendering} (h : d.render options = .ok out) :
    ∃ f q, Runs options d 0 (.initial options) f q ∧ out = ⟨q.writer.text, q.spans⟩ := by
  rw [render_eq] at h
  split at h
  · next hf =>
    obtain ⟨f, hr⟩ := runs_of_done d 0 (.initial options) hf
    exact ⟨f, _, hr, (Except.ok.inj h).symm⟩
  · cases h

/-- A rendering has spans for the nodes that the events of its document show. -/
theorem isSome_span_iff {out : Rendering} (h : d.render options = .ok out) (k : NodeKey) :
    (out.spans.get? k).isSome ↔ k ∈ ((d.events none).recorded []).labels := by
  obtain ⟨f, q, hr, rfl⟩ := runs_of_render h
  have hspans : q.spans = f.record .empty := hr.spans_eq
  have hkeys : f.map Visited.key = (d.events none).recorded [] := hr.keys_eq rfl
  show (q.spans.get? k).isSome ↔ _
  rw [hspans, Forest.isSome_record, hkeys]
  simp

/-- A rendering succeeds exactly if no event ends it. -/
theorem exists_render_iff :
    (∃ out, d.render options = .ok out) ↔ (d.events none).failure options.strict = none := by
  cases hd : d.render options with
  | ok out =>
    refine iff_of_true ⟨out, rfl⟩ (Option.eq_none_iff_forall_ne_some.2 fun e he => ?_)
    rw [render_eq_error.2 he] at hd
    cases hd
  | error e => simp [render_eq_error.1 hd]

end Doc

end SourcePrinter
