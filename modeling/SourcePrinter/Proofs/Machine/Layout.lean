import SourcePrinter.Proofs.Machine.Range
import SourcePrinter.Proofs.Machine.Runs

/-! What no layout changes on a machine. Two renderings of a document, each with its own columns,
tabs and gaps between types, go on alike as long as neither is aborted: they write the same ink,
keep spans for the same nodes, and end with the same error or without one. -/

namespace SourcePrinter

variable {m m' : Machine} {ofUnit : Prop}

/-! ### Writers -/

namespace Writer

variable {w v w' v' : Writer} {i : List Char} {s s' : Prop}

/-- Two writers have written the same but for white space. Outside units, what is empty is empty for
both. -/
structure Alike (ofUnit : Prop) (w v : Writer) : Prop where
  ink : ink w.text = ink v.text
  fresh : w.Fresh
  fresh' : v.Fresh
  empty : ofUnit ∨ (w.text = "" ↔ v.text = "")

theorem Lays.ink_eq (h : w.Lays m i s v) :
    SourcePrinter.ink v.text = SourcePrinter.ink w.text ++ i := by
  obtain ⟨added, hadded, rfl⟩ := h.adds
  rw [SourcePrinter.ink, hadded.text, List.filter_append]
  rfl

/-- Writers that lay down the same stay alike. -/
theorem Alike.lays (h : w.Alike ofUnit v) (hw : w.Lays m i s w') (hv : v.Lays m' i s' v')
    (hs : ofUnit ∨ (s ↔ s')) : w'.Alike ofUnit v' where
  ink := by rw [hw.ink_eq, hv.ink_eq, h.ink]
  fresh := (hw.fresh h.fresh).1
  fresh' := (hv.fresh h.fresh').1
  empty := by
    rcases h.empty with hunit | hempty
    · exact .inl hunit
    rcases hs with hunit | hs
    · exact .inl hunit
    · exact .inr (by rw [(hw.fresh h.fresh).2, (hv.fresh h.fresh').2, hempty, hs])

end Writer

/-! ### States -/

namespace Pass

/-- Two states with writers that are alike and with the same surroundings, and with spans for the
same nodes. -/
structure Alike (ofUnit : Prop) (p q : Pass) : Prop where
  writer : p.writer.Alike ofUnit q.writer
  spans : ∀ k, (p.spans.get? k).isSome = (q.spans.get? k).isSome
  synthetic : p.synthetic = q.synthetic
  recording : p.recording = q.recording
  scopes : p.scopes = q.scopes

namespace Alike

variable {p q : Pass}

theorem scope (h : p.Alike ofUnit q) : p.scope = q.scope := by
  rw [Pass.scope, Pass.scope, h.scopes]

theorem withWriter (h : p.Alike ofUnit q) {w v : Writer} (hw : w.Alike ofUnit v) :
    Alike ofUnit { p with writer := w } { q with writer := v } :=
  ⟨hw, h.spans, h.synthetic, h.recording, h.scopes⟩

theorem markSynthetic (h : p.Alike ofUnit q) (key : NodeKey) :
    (p.markSynthetic key).Alike ofUnit (q.markSynthetic key) := by
  unfold Pass.markSynthetic
  rw [h.synthetic]
  split
  · exact h
  · exact ⟨h.writer, h.spans, rfl, h.recording, h.scopes⟩

theorem unmarkSynthetic (h : p.Alike ofUnit q) (key : NodeKey) (marked : Bool) :
    (p.unmarkSynthetic key marked).Alike ofUnit (q.unmarkSynthetic key marked) := by
  unfold Pass.unmarkSynthetic
  split
  · exact h
  · exact ⟨h.writer, h.spans, congrArg (List.erase · key) h.synthetic, h.recording, h.scopes⟩

theorem enter (h : p.Alike ofUnit q) (key : NodeKey) :
    (p.enter key).2.Alike ofUnit (q.enter key).2 where
  writer := h.writer
  spans := h.spans
  synthetic := h.synthetic
  recording := by
    show (p.recording && !p.synthetic.contains key) = (q.recording && !q.synthetic.contains key)
    rw [h.recording, h.synthetic]
  scopes := h.scopes

/-- A node that is left keeps a span in both states or in neither. -/
theorem leave (h : p.Alike ofUnit q) {v v' : Visit} (hkey : v.key = v'.key)
    (hrecording : v.recording = v'.recording) (hsuspended : v.suspended = v'.suspended)
    (failed : Bool) : (p.leave v failed).Alike ofUnit (q.leave v' failed) where
  writer := h.writer
  spans k := by
    simp only [Pass.leave, hkey, hrecording, hsuspended]
    split
    · by_cases hk : k = v'.key
      · rw [hk, SpanTable.get?_insert_self, SpanTable.get?_insert_self]
        rfl
      · rw [SpanTable.get?_insert_of_ne _ _ hk, SpanTable.get?_insert_of_ne _ _ hk]
        exact h.spans k
    · exact h.spans k
  synthetic := h.synthetic
  recording := hrecording
  scopes := h.scopes

end Alike

end Pass

/-! ### Documents -/

namespace Doc

variable {options options' : Options} {d : Doc} {column column' : Nat} {p q : Pass} {o o' : Outcome}

/-- What is done at an end without an error is done in both runs. -/
theorem alike_onDone (h : o.pass.Alike ofUnit o'.pass) (hfailure : o.failure = o'.failure)
    {f f' : Pass → Pass} (hf : ∀ p q : Pass, p.Alike ofUnit q → (f p).Alike ofUnit (f' q)) :
    (o.onDone f).pass.Alike ofUnit (o'.onDone f').pass := by
  unfold Outcome.onDone
  rw [hfailure]
  split
  · exact hf _ _ h
  · exact h

/-- Two runs from states that are alike, under options with one policy, end in states that are
alike. -/
theorem run?_alike (hd : d.Neat ofUnit) (hstrict : options.strict = options'.strict)
    (hp : p.Alike ofUnit q) (h : d.run? m options column p = some o)
    (h' : d.run? m' options' column' q = some o') :
    o.pass.Alike ofUnit o'.pass ∧ o.failure = o'.failure := by
  -- Both runs end as the events say; what is to be shown is that the states stay alike.
  suffices halike : o.pass.Alike ofUnit o'.pass by
    refine ⟨halike, ?_⟩
    rw [(run?_ends h).2, (run?_ends h').2, hp.scope, hstrict]
  induction d generalizing column column' p q o o' with
  | empty | malformed =>
    cases h
    cases h'
    exact hp
  | text s =>
    obtain ⟨w, hw, rfl⟩ := run?_step h
    obtain ⟨v, hv, rfl⟩ := run?_step h'
    exact hp.withWriter
      (hp.writer.lays (Writer.write?_lays hw) (Writer.write?_lays hv) (.inr Iff.rfl))
  | newline =>
    obtain ⟨w, hw, rfl⟩ := run?_step h
    obtain ⟨v, hv, rfl⟩ := run?_step h'
    exact hp.withWriter
      (hp.writer.lays (Writer.newline?_lays hw) (Writer.newline?_lays hv) (.inr Iff.rfl))
  | lineStart =>
    obtain ⟨w, hw, rfl⟩ := run?_step h
    obtain ⟨v, hv, rfl⟩ := run?_step h'
    exact hp.withWriter (hp.writer.lays (Writer.ensureLineStart?_lays hw)
      (Writer.ensureLineStart?_lays hv) (.inr Iff.rfl))
  | typeGap =>
    obtain ⟨w, hw, rfl⟩ := run?_step h
    obtain ⟨v, hv, rfl⟩ := run?_step h'
    exact hp.withWriter
      (hp.writer.lays (Writer.blankLines?_lays hw) (Writer.blankLines?_lays hv) (.inl hd))
  | separator s =>
    obtain ⟨w, hw, rfl⟩ := run?_step h
    obtain ⟨v, hv, rfl⟩ := run?_step h'
    obtain ⟨⟨w, broken⟩, hparted, rfl⟩ := Option.map_eq_some_iff.1 hw
    obtain ⟨⟨v, broken'⟩, hparted', rfl⟩ := Option.map_eq_some_iff.1 hv
    exact hp.withWriter (hp.writer.lays (Writer.writeSeparator?_lays hd hparted)
      (Writer.writeSeparator?_lays hd hparted') (.inr Iff.rfl))
  | append first second ih ih' =>
    obtain ⟨o₁, hfirst, hsecond⟩ := run?_append h
    obtain ⟨o₁', hfirst', hsecond'⟩ := run?_append h'
    have halike := ih hd.1 hp hfirst hfirst'
    have hfailure : o₁.failure = o₁'.failure := by
      rw [(run?_ends hfirst).2, (run?_ends hfirst').2, hp.scope, hstrict]
    rw [hfailure] at hsecond
    rcases hsecond with ⟨hdone, hsecond⟩ | ⟨hfailed, rfl⟩ <;>
      rcases hsecond' with ⟨hdone', hsecond'⟩ | ⟨hfailed', rfl⟩
    · exact ih' hd.2 halike hsecond hsecond'
    · exact absurd hdone hfailed'
    · exact absurd hdone' hfailed
    · exact halike
  | nested body ih =>
    obtain ⟨w, o₁, hw, hbody, rfl⟩ := run?_nested h
    obtain ⟨v, o₁', hv, hbody', rfl⟩ := run?_nested h'
    have hdeeper := hp.withWriter
      (hp.writer.lays (Writer.indent?_lays hw) (Writer.indent?_lays hv) (.inr Iff.rfl))
    have hfailure : o₁.failure = o₁'.failure := by
      rw [(run?_ends hbody).2, (run?_ends hbody').2, hdeeper.scope, hstrict]
    exact alike_onDone (ih hd hdeeper hbody hbody') hfailure fun p q hpq =>
      hpq.withWriter
        (hpq.writer.lays (Writer.dedent_lays m _) (Writer.dedent_lays m' _) (.inr Iff.rfl))
  | aligned body ih =>
    obtain ⟨w, start, owned, o₁, hw, hbody, rfl⟩ := run?_aligned h
    obtain ⟨v, start', owned', o₁', hv, hbody', rfl⟩ := run?_aligned h'
    have hbegun := hp.withWriter
      (hp.writer.lays (Writer.beginList?_lays hw) (Writer.beginList?_lays hv) (.inr Iff.rfl))
    have hfailure : o₁.failure = o₁'.failure := by
      rw [(run?_ends hbody).2, (run?_ends hbody').2, hbegun.scope, hstrict]
    exact alike_onDone (ih hd hbegun hbody hbody') hfailure fun p q hpq =>
      hpq.withWriter (hpq.writer.lays (Writer.endList_lays m _ owned)
        (Writer.endList_lays m' _ owned') (.inr Iff.rfl))
  | node key body ih =>
    obtain ⟨pending, o₁, hbody, rfl⟩ := run?_node h
    obtain ⟨pending', o₁', hbody', rfl⟩ := run?_node h'
    have hentered := hp.enter key
    have hfailure : o₁.failure = o₁'.failure := by
      rw [(run?_ends hbody).2, (run?_ends hbody').2, hentered.scope, hstrict]
    show (o₁.pass.leave { (p.enter key).1 with pending } o₁.failure.isSome).Alike ofUnit
      (o₁'.pass.leave { (q.enter key).1 with pending := pending' } o₁'.failure.isSome)
    rw [hfailure]
    refine Pass.Alike.leave (ih hd hentered hbody hbody') ?_ ?_ ?_ _
    · rfl
    · exact hp.recording
    · exact congrArg (List.contains · key) hp.synthetic
  | synthetic key body ih =>
    obtain ⟨o₁, hbody, rfl⟩ := run?_synthetic h
    obtain ⟨o₁', hbody', rfl⟩ := run?_synthetic h'
    have hmarked := (ih hd (hp.markSynthetic key) hbody hbody').unmarkSynthetic key
    show (o₁.pass.unmarkSynthetic key _).Alike ofUnit (o₁'.pass.unmarkSynthetic key _)
    rw [hp.synthetic]
    exact hmarked _
  | inside scope body ih =>
    obtain ⟨o₁, hbody, rfl⟩ := run?_inside h
    obtain ⟨o₁', hbody', rfl⟩ := run?_inside h'
    have hpushed : (p.pushScope scope).Alike ofUnit (q.pushScope scope) :=
      ⟨hp.writer, hp.spans, hp.synthetic, hp.recording, congrArg (scope :: ·) hp.scopes⟩
    have halike := ih hd hpushed hbody hbody'
    exact ⟨halike.writer, halike.spans, halike.synthetic, halike.recording,
      congrArg List.tail halike.scopes⟩
  | perScope body ih =>
    rw [run?, hp.scope] at h
    exact ih q.scope (hd _) hp h h'
  | unsupported gap remark ih =>
    rcases run?_unsupported h with ⟨hs, rfl⟩ | ⟨hs, hremark⟩ <;>
      rcases run?_unsupported h' with ⟨hs', rfl⟩ | ⟨hs', hremark'⟩
    · exact hp
    · exact absurd (hs.symm.trans (hstrict.trans hs')) (by decide)
    · exact absurd (hs.symm.trans (hstrict.trans hs')) (by decide)
    · exact ih hd hp hremark hremark'

/-- Two renderings that are not aborted fail with one error or come to the same but for white
space. -/
theorem Neat.render?_similar (hd : d.Neat ofUnit) (hstrict : options.strict = options'.strict)
    {a b : Except RenderError Rendering} (h : d.render? m options = some a)
    (h' : d.render? m' options' = some b) :
    (∃ e, a = .error e ∧ b = .error e) ∨ ∃ out out', a = .ok out ∧ b = .ok out' ∧
      out.Similar out' ∧ (ofUnit ∨ out.text.isEmpty = out'.text.isEmpty) := by
  obtain ⟨o, hrun, ha⟩ := Option.bind_eq_some_iff.1 h
  obtain ⟨o', hrun', hb⟩ := Option.bind_eq_some_iff.1 h'
  have hstart : (Pass.initial options).Alike ofUnit (Pass.initial options') :=
    ⟨⟨rfl, fun _ => rfl, fun _ => rfl, .inr Iff.rfl⟩, fun _ => rfl, rfl, rfl, rfl⟩
  obtain ⟨halike, hfailure⟩ := run?_alike hd hstrict hstart hrun hrun'
  rw [hfailure] at ha
  cases hf : o'.failure with
  | some e =>
    rw [hf] at ha hb
    cases ha
    cases hb
    exact .inl ⟨e, rfl, rfl⟩
  | none =>
    rw [hf] at ha hb
    cases ha
    cases hb
    refine .inr ⟨_, _, rfl, rfl, ⟨halike.writer.ink, halike.spans⟩, ?_⟩
    refine halike.writer.empty.imp id fun hempty => ?_
    rw [Bool.eq_iff_iff, String.isEmpty_iff, String.isEmpty_iff]
    exact hempty

end Doc

/-- The column at which lists wrap, the look of the indentation and the gap between types change
spaces, tabs and line feeds only, on every machine. Under options that differ in nothing else, one
of two renderings of a request is aborted, which happens out of range only; or both fail with the
same error, or succeed with the same ink and with spans for the same nodes, and a statement that
writes nothing under the ones writes nothing under the others. -/
theorem Dialect.layout_is_white_space_on (m : Machine) (d : Dialect) (options : Options)
    (wrapColumn : Nat) (useTabs : Bool) (tabSize typeGap : Nat) (r : Request) :
    let options' := { options with wrapColumn, useTabs, tabSize, typeGap }
    r.render? m d.language options = none ∧ ¬r.InRange d.language options ∨
      r.render? m d.language options' = none ∧ ¬r.InRange d.language options' ∨
      (∃ e, r.render? m d.language options = some (.error e) ∧
        r.render? m d.language options' = some (.error e)) ∨
      ∃ out out', r.render? m d.language options = some (.ok out) ∧
        r.render? m d.language options' = some (.ok out') ∧ out.Similar out' ∧
        ∀ s home, r = .statement s home → out.text.isEmpty = out'.text.isEmpty := by
  intro options'
  have hdocument : r.document d.language options' = r.document d.language options := by
    cases r <;> rfl
  cases h : r.render? m d.language options with
  | none => exact .inl ⟨rfl, Request.not_inRange_of_aborted h⟩
  | some a =>
    cases h' : r.render? m d.language options' with
    | none => exact .inr (.inl ⟨rfl, Request.not_inRange_of_aborted h'⟩)
    | some b =>
      rw [Request.render?] at h h'
      rw [hdocument] at h'
      have hneat := d.composes.document_neat options r
      have hstrict : options.strict = options'.strict := rfl
      rcases hneat.render?_similar hstrict h h' with
        ⟨e, rfl, rfl⟩ | ⟨out, out', rfl, rfl, hsimilar, hempty⟩
      · exact .inr (.inr (.inl ⟨e, rfl, rfl⟩))
      · refine .inr (.inr (.inr ⟨out, out', rfl, rfl, hsimilar, ?_⟩))
        rintro s home rfl
        exact hempty.resolve_left nofun

/-- A switch whose one case has no labels, a statement that is written and one that is a gap. -/
def Request.gapCase : Request :=
  .statement ⟨1, .switch ⟨1, .nil⟩
    [⟨[], [⟨2, .returning none⟩, ⟨3, .expression ⟨2, .result⟩⟩]⟩] none⟩ none

/-- With levels of four spaces the switch fails, and where two levels are longer than any text every
machine aborts it before. -/
theorem Request.gapCase_aborts :
    (∀ m, ∃ e, gapCase.render? m .csharp { Options.initial with strict := true } =
      some (.error e)) ∧
    ∀ m, gapCase.render? m .csharp
      { Options.initial with strict := true, tabSize := Machine.words / 4 } = none := by
  refine ⟨fun m => ?_, fun m => ?_⟩
  · cases m <;> exact ⟨_, rfl⟩
  · cases m <;> rfl

end SourcePrinter
