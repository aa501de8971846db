import SourcePrinter.Proofs.Outline

/-! The events of a document: the nodes that it renders, each with the events inside it, and where
it runs into a gap of the language or a fault of the tree. Texts and layout are no events. Whether a
run fails, and how, can be read off the events. -/

namespace SourcePrinter

/-- Events, one after the other. -/
inductive Events where
  | done
  /-- A node is rendered. -/
  | node (key : NodeKey) (inner rest : Events)
  /-- A synthetic node: no spans are kept for it. -/
  | hidden (key : NodeKey) (inner rest : Events)
  /-- A gap of the language, with the remark on it and the events of that. -/
  | gap (gap : Gap) (remark : Doc) (said rest : Events)
  | fault (detail : String) (rest : Events)

namespace Events

/-- Events after others. -/
def append : Events → Events → Events
  | done, e => e
  | node key inner rest, e => node key inner (append rest e)
  | hidden key inner rest, e => hidden key inner (append rest e)
  | gap g remark said rest, e => gap g remark said (append rest e)
  | fault detail rest, e => fault detail (append rest e)

instance : Append Events := ⟨append⟩

@[simp] theorem done_append (e : Events) : done ++ e = e := rfl

@[simp] theorem node_append (key : NodeKey) (inner rest e : Events) :
    node key inner rest ++ e = node key inner (rest ++ e) := rfl

@[simp] theorem hidden_append (key : NodeKey) (inner rest e : Events) :
    hidden key inner rest ++ e = hidden key inner (rest ++ e) := rfl

@[simp] theorem gap_append (g : Gap) (remark : Doc) (said rest e : Events) :
    gap g remark said rest ++ e = gap g remark said (rest ++ e) := rfl

@[simp] theorem fault_append (detail : String) (rest e : Events) :
    fault detail rest ++ e = fault detail (rest ++ e) := rfl

@[simp] theorem append_done (e : Events) : e ++ done = e := by
  induction e <;> simp_all

/-- The keys of the nodes that are rendered, once for every rendering. -/
def rendered : Events → List NodeKey
  | done => []
  | node key inner rest => key :: (inner.rendered ++ rest.rendered)
  | hidden _ inner rest => inner.rendered ++ rest.rendered
  | gap _ _ said rest => said.rendered ++ rest.rendered
  | fault _ rest => rest.rendered

/-- How a run ends: the first fault is an error, and under the strict policy so is a gap. -/
def failure (strict : Bool) : Events → Option RenderError
  | done => none
  | node _ inner rest | hidden _ inner rest => (inner.failure strict).or (rest.failure strict)
  | gap g _ said rest =>
    if strict then some (.unsupported g) else (said.failure strict).or (rest.failure strict)
  | fault detail _ => some (.malformed detail)

@[simp] theorem failure_append (strict : Bool) (a b : Events) :
    (a ++ b).failure strict = (a.failure strict).or (b.failure strict) := by
  induction a with
  | done => rfl
  | node _ inner rest _ ih | hidden _ inner rest _ ih => simp [failure, ih, Option.or_assoc]
  | gap g remark said rest _ ih => cases strict <;> simp [failure, ih, Option.or_assoc]
  | fault => rfl

/-- Events that end no strict run end no lenient one. -/
theorem lenient_of_none {e : Events} (h : e.failure true = none) : e.failure false = none := by
  induction e with
  | done => rfl
  | node _ inner rest ih ih' | hidden _ inner rest ih ih' =>
    simp only [failure, Option.or_eq_none_iff] at h ⊢
    exact ⟨ih h.1, ih' h.2⟩
  | gap | fault => cases h

/-- A fault that ends a strict run ends the lenient one. -/
theorem lenient_of_malformed {e : Events} {detail : String}
    (h : e.failure true = some (.malformed detail)) :
    e.failure false = some (.malformed detail) := by
  induction e with
  | done | gap => cases h
  | fault => exact h
  | node _ inner rest ih ih' | hidden _ inner rest ih ih' =>
    simp only [failure, Option.or_eq_some_iff] at h ⊢
    rcases h with h | ⟨h, h'⟩
    · exact .inl (ih h)
    · exact .inr ⟨lenient_of_none h, ih' h'⟩

/-- No gap ends a lenient run. -/
theorem lenient_ne_unsupported (e : Events) (g : Gap) :
    e.failure false ≠ some (.unsupported g) := by
  induction e with
  | done | fault => nofun
  | node _ inner rest ih ih' | hidden _ inner rest ih ih' | gap _ _ inner rest ih ih' =>
    simp only [failure, Bool.false_eq_true, if_false, ne_eq, Option.or_eq_some_iff, not_or,
      not_and]
    exact ⟨ih, fun _ => ih'⟩

end Events

namespace Doc

/-- The events of a document in a type, or outside any. -/
def events : Doc → Option TypeScope → Events
  | empty, _ | text _, _ | newline, _ | lineStart, _ | typeGap, _ | separator _, _ => .done
  | append first second, scope => first.events scope ++ second.events scope
  | nested body, scope | aligned body, scope => body.events scope
  | node key body, scope => .node key (body.events scope) .done
  | synthetic key body, scope => .hidden key (body.events scope) .done
  | inside inner body, _ => body.events (some inner)
  | perScope body, scope => (body scope).events scope
  | unsupported gap remark, scope => .gap gap remark (remark.events scope) .done
  | malformed detail, _ => .fault detail .done

/-- A document that only writes text and lays it out. -/
def Textual : Doc → Prop
  | empty | text _ | newline | lineStart | typeGap | separator _ => True
  | append first second => first.Textual ∧ second.Textual
  | nested body | aligned body => body.Textual
  | _ => False

/-! ### Events of the ways to put documents together -/

section Events

variable (scope : Option TypeScope)

@[simp] theorem events_empty : empty.events scope = .done := rfl

@[simp] theorem events_text (s : String) : (text s).events scope = .done := rfl

@[simp] theorem events_newline : newline.events scope = .done := rfl

@[simp] theorem events_lineStart : lineStart.events scope = .done := rfl

@[simp] theorem events_typeGap : typeGap.events scope = .done := rfl

@[simp] theorem events_separator (s : String) : (separator s).events scope = .done := rfl

@[simp] theorem events_append (first second : Doc) :
    (first ++ second).events scope = first.events scope ++ second.events scope := rfl

@[simp] theorem events_nested (body : Doc) : (nested body).events scope = body.events scope := rfl

@[simp] theorem events_aligned (body : Doc) : (aligned body).events scope = body.events scope := rfl

@[simp] theorem events_node (key : NodeKey) (body : Doc) :
    (node key body).events scope = .node key (body.events scope) .done := rfl

@[simp] theorem events_synthetic (key : NodeKey) (body : Doc) :
    (synthetic key body).events scope = .hidden key (body.events scope) .done := rfl

@[simp] theorem events_inside (inner : TypeScope) (body : Doc) :
    (inside inner body).events scope = body.events (some inner) := rfl

@[simp] theorem events_perScope (body : Option TypeScope → Doc) :
    (perScope body).events scope = (body scope).events scope := rfl

@[simp] theorem events_malformed (detail : String) :
    (malformed detail).events scope = .fault detail .done := rfl

@[simp] theorem events_line (s : String) : (line s).events scope = .done := rfl

variable {scope}

theorem events_compositional (scope : Option TypeScope) :
    Compositional (fun d => d.events scope = .done) where
  empty := rfl
  append _ _ h h' := by rw [events_append, h, h', Events.done_append]

theorem events_when {d : Doc} (hd : d.events scope = .done) (condition : Bool) :
    (when condition d).events scope = .done :=
  (events_compositional scope).when hd condition

theorem events_whenSome {α : Type} {doc : α → Doc} (hd : ∀ a, (doc a).events scope = .done)
    (value : Option α) : (whenSome value doc).events scope = .done :=
  (events_compositional scope).whenSome fun a _ => hd a

end Events

theorem Textual.events {d : Doc} (h : d.Textual) (scope : Option TypeScope) :
    d.events scope = .done := by
  induction d with
  | append first second ih ih' =>
    rw [show (first.append second).events scope = first.events scope ++ second.events scope from
      rfl, ih h.1, ih' h.2]
    rfl
  | nested body ih | aligned body ih => exact ih h
  | empty | text | newline | lineStart | typeGap | separator => rfl
  | node | synthetic | inside | perScope | unsupported | malformed => exact h.elim

theorem textual_concat {α : Type} {doc : α → Doc} (h : ∀ a, (doc a).Textual) (items : List α) :
    (concat (items.map doc)).Textual := by
  have htextual : Compositional Textual := ⟨trivial, fun _ _ h h' => ⟨h, h'⟩⟩
  exact htextual.concat (List.forall_mem_map.2 fun a _ => h a)

end Doc

namespace Hooks

/-- The hooks only write text. -/
structure Textual (h : Hooks) : Prop where
  lineComment : ∀ s, (h.lineComment s).Textual
  inlineComment : ∀ s, (h.inlineComment s).Textual
  importing : ∀ c i, (h.importing c i).Textual

end Hooks

/-! ### Events and runs -/

namespace Pass

variable (p : Pass) (key : NodeKey)

theorem synthetic_markSynthetic : (p.markSynthetic key).synthetic =
    if key ∈ p.synthetic then p.synthetic else key :: p.synthetic := by
  unfold markSynthetic; split <;> simp_all

@[simp] theorem scopes_markSynthetic : (p.markSynthetic key).scopes = p.scopes := by
  unfold markSynthetic; split <;> rfl

@[simp] theorem recording_markSynthetic : (p.markSynthetic key).recording = p.recording := by
  unfold markSynthetic; split <;> rfl

@[simp] theorem scope_markSynthetic : (p.markSynthetic key).scope = p.scope := by
  unfold scope; rw [scopes_markSynthetic]

@[simp] theorem scope_enter : (p.enter key).2.scope = p.scope := rfl

@[simp] theorem scope_pushScope (scope : TypeScope) : (p.pushScope scope).scope = some scope := rfl

end Pass

namespace Doc

/-- A run leaves what surrounds the place as it was. -/
theorem run_surroundings (options : Options) (d : Doc) (column : Nat) (p : Pass) :
    let o := d.run options column p
    o.pass.scopes = p.scopes ∧ o.pass.synthetic = p.synthetic ∧ o.pass.recording = p.recording := by
  induction d generalizing column p with
  | empty | text | newline | lineStart | typeGap | separator | malformed => exact ⟨rfl, rfl, rfl⟩
  | append first second ih ih' =>
    simp only [run, Outcome.andThen]
    obtain ⟨h1, h2, h3⟩ := ih column p
    split
    · obtain ⟨h4, h5, h6⟩ := ih' column (first.run options column p).pass
      exact ⟨h4.trans h1, h5.trans h2, h6.trans h3⟩
    · exact ⟨h1, h2, h3⟩
  | nested body ih | aligned body ih =>
    simp only [run, Outcome.onDone]
    split <;> exact ih _ _
  | node key body ih =>
    obtain ⟨h1, h2, -⟩ := ih column (p.enter key).2
    exact ⟨h1, h2, rfl⟩
  | synthetic key body ih =>
    obtain ⟨h1, h2, h3⟩ := ih column (p.markSynthetic key)
    rw [Pass.synthetic_markSynthetic] at h2
    simp only [run, Outcome.mapPass, Pass.unmarkSynthetic, List.contains_iff_mem]
    by_cases h : key ∈ p.synthetic
    · rw [if_pos h] at h2 ⊢
      exact ⟨by simpa using h1, h2, by simpa using h3⟩
    · rw [if_neg h] at h2 ⊢
      exact ⟨by simpa using h1, by simp [h2], by simpa using h3⟩
  | inside scope body ih =>
    obtain ⟨h1, h2, h3⟩ := ih column (p.pushScope scope)
    refine ⟨?_, h2, h3⟩
    show (body.run options column (p.pushScope scope)).pass.scopes.tail = p.scopes
    rw [h1]
    rfl
  | perScope body ih => exact ih _ _ _
  | unsupported gap remark ih =>
    simp only [run]
    split
    · exact ⟨rfl, rfl, rfl⟩
    · exact ih _ _

theorem run_scope (options : Options) (d : Doc) (column : Nat) (p : Pass) :
    (d.run options column p).pass.scope = p.scope := by
  rw [Pass.scope, (run_surroundings options d column p).1, Pass.scope]

/-- A run ends as the events say. -/
theorem run_failure (options : Options) (d : Doc) (column : Nat) (p : Pass) :
    (d.run options column p).failure = (d.events p.scope).failure options.strict := by
  induction d generalizing column p with
  | empty | text | newline | lineStart | typeGap | separator | malformed => rfl
  | append first second ih ih' =>
    have hb := ih' column (first.run options column p).pass
    rw [run_scope] at hb
    simp only [run, Outcome.andThen, events, Events.failure_append, ← ih column p]
    cases h : (first.run options column p).failure with
    | none => simpa using hb
    | some e => simpa using h
  | nested body ih | aligned body ih =>
    simp only [run, Outcome.onDone, events]
    split
    · next h => rw [← h]; exact ih _ _
    · exact ih _ _
  | node key body ih =>
    simpa [run, Outcome.mapPass, events, Events.failure, Pass.scope_enter] using
      ih column (p.enter key).2
  | synthetic key body ih =>
    simpa [run, Outcome.mapPass, events, Events.failure] using ih column (p.markSynthetic key)
  | inside scope body ih =>
    have h := ih column (p.pushScope scope)
    rw [Pass.scope_pushScope] at h
    simpa [run, Outcome.mapPass, events] using h
  | perScope body ih => exact ih _ _ _
  | unsupported gap remark ih =>
    simp only [run, events, Events.failure]
    split
    · rfl
    · simpa using ih column p

end Doc

end SourcePrinter
