import SourcePrinter.Proofs.Moves
import SourcePrinter.Proofs.Surroundings

/-! Where lists end. A list that is rendered to its end is no longer in progress. One that an error
leaves stays in progress, and later lists join it, unless the error came from inside a level of
indentation, or after one. -/

namespace SourcePrinter

namespace Writer

/-- After the end of a list one is in progress if one was inside it and the caller had not started
it. -/
theorem isSome_alignment_endList (w : Writer) (owned : Bool) :
    (w.endList owned).alignment.isSome = (w.alignment.isSome && !owned) := by
  cases owned <;> simp [endList]

/-- Inside a list one is in progress. -/
theorem isSome_alignment_beginList (w : Writer) : w.beginList.1.alignment.isSome = true := by
  unfold beginList
  split
  · next h => rw [h]; rfl
  · rfl

/-- A list that is begun inside another has its column. -/
theorem beginList_of_some {w : Writer} {column : Nat} (h : w.alignment = some column) :
    w.beginList = (w, column, false) := by
  rw [beginList, h]

end Writer

namespace Doc

variable {options : Options} {d : Doc} {column : Nat} {p : Pass}

/-- Whether a list is in progress where a run ends, with or without an error, from whether one is
where it starts. -/
def endsInList (strict : Bool) : Doc → Option TypeScope → Bool → Bool
  | append first second, scope, held =>
    let middle := first.endsInList strict scope held
    if ((first.events scope).failure strict).isSome then middle
    else second.endsInList strict scope middle
  | nested body, scope, _ =>
    ((body.events scope).failure strict).isSome && body.endsInList strict scope false
  | aligned body, scope, held =>
    body.endsInList strict scope true && (held || ((body.events scope).failure strict).isSome)
  | node _ body, scope, held | synthetic _ body, scope, held => body.endsInList strict scope held
  | inside inner body, _, held => body.endsInList strict (some inner) held
  | perScope body, scope, held => (body scope).endsInList strict scope held
  | unsupported _ remark, scope, held =>
    if strict then held else remark.endsInList strict scope held
  | empty, _, held | text _, _, held | newline, _, held | lineStart, _, held | typeGap, _, held
  | separator _, _, held | malformed _, _, held => held

/-- A list that is begun when none is in progress and comes to its end is not in progress then. -/
theorem endsInList_aligned {strict : Bool} {scope : Option TypeScope}
    (h : (d.events scope).failure strict = none) :
    (aligned d).endsInList strict scope false = false := by
  simp [endsInList, h]

theorem isSome_alignment_run (options : Options) (d : Doc) (column : Nat) (p : Pass) :
    (d.run options column p).pass.writer.alignment.isSome =
      d.endsInList options.strict p.scope p.writer.alignment.isSome := by
  induction d generalizing column p with
  | empty | newline | malformed => rfl
  | text | lineStart | typeGap | separator =>
    simp [run, endsInList, Outcome.done, Pass.mapWriter, Writer.write]
  | append first second ih ih' =>
    have hfirst := ih column p
    have hsecond := ih' column (first.run options column p).pass
    rw [hfirst, run_scope] at hsecond
    simp only [run, Outcome.andThen, endsInList, ← run_failure options first column p]
    split
    · next hdone => simp [hdone, hsecond]
    · next hfailed => simp [hfailed, hfirst]
  | nested body ih =>
    -- A change of level forgets the list in progress, but an error comes before the second one.
    have hbody := ih column (p.mapWriter (·.indent))
    have hfail := run_failure options body column (p.mapWriter (·.indent))
    simp only [run, Outcome.onDone]
    rw [endsInList, show (body.events p.scope).failure options.strict = _ from hfail.symm]
    split
    · next hdone => rw [hdone]; rfl
    · next hfailed => rw [hfailed]; exact hbody
  | aligned body ih =>
    -- The list has begun, or has joined another; only where it does not fail does it end.
    have hbody := ih p.writer.beginList.2.1 { p with writer := p.writer.beginList.1 }
    have hfail := run_failure options body p.writer.beginList.2.1
      { p with writer := p.writer.beginList.1 }
    rw [Writer.isSome_alignment_beginList] at hbody
    simp only [run, Outcome.onDone]
    rw [endsInList, show (body.events p.scope).failure options.strict = _ from hfail.symm]
    split
    · next hdone =>
      rw [hdone, Option.isSome_none, Bool.or_false]
      refine (Writer.isSome_alignment_endList _ _).trans ?_
      rw [hbody, Writer.owned_beginList]
      cases p.writer.alignment <;> rfl
    · next hfailed =>
      rw [hfailed, Option.isSome_some, Bool.or_true, Bool.and_true]
      exact hbody
  | node key body ih => exact ih column (p.enter key).2
  | synthetic key body ih =>
    have hbody := ih column (p.markSynthetic key)
    rw [Pass.scope_markSynthetic, Pass.writer_markSynthetic] at hbody
    simp only [run, Outcome.mapPass, Pass.writer_unmarkSynthetic]
    exact hbody
  | inside inner body ih => exact ih column (p.pushScope inner)
  | perScope body ih => exact ih p.scope column p
  | unsupported gap remark ih =>
    simp only [run, endsInList]
    split
    · rfl
    · exact ih column p

/-- At one level of indentation a list in progress keeps its column, whether the run fails or
not. -/
theorem alignment_run_of_level (hp : p.writer.alignment = some column)
    (hlevel : .indent ∉ d.moves p.scope) (breakColumn : Nat) :
    (d.run options breakColumn p).pass.writer.alignment = some column := by
  induction d generalizing breakColumn p with
  | empty | newline | malformed => exact hp
  | text | lineStart | typeGap | separator =>
    simpa [run, Outcome.done, Pass.mapWriter, Writer.write] using hp
  | append first second ih ih' =>
    simp only [moves, List.mem_append, not_or] at hlevel
    have hfirst := ih hp hlevel.1 breakColumn
    simp only [run, Outcome.andThen]
    split
    · refine ih' hfirst ?_ breakColumn
      rw [run_scope]
      exact hlevel.2
    · exact hfirst
  | nested body => exact absurd List.mem_cons_self hlevel
  | aligned body ih =>
    have hbody := ih hp hlevel column
    simp only [run, Writer.beginList_of_some hp, Outcome.onDone]
    split <;> exact hbody
  | node key body ih => exact ih (p := (p.enter key).2) hp hlevel breakColumn
  | synthetic key body ih =>
    have hmarked : .indent ∉ body.moves (p.markSynthetic key).scope := by
      rw [Pass.scope_markSynthetic]
      exact hlevel
    have hbody := ih (by simpa using hp) hmarked breakColumn
    simp only [run, Outcome.mapPass, Pass.writer_unmarkSynthetic]
    exact hbody
  | inside inner body ih => exact ih (p := p.pushScope inner) hp hlevel breakColumn
  | perScope body ih => exact ih p.scope hp hlevel breakColumn
  | unsupported gap remark ih =>
    simp only [moves, List.mem_cons, not_or] at hlevel
    simp only [run]
    split
    · exact hp
    · exact ih hp hlevel.2 breakColumn

/-- The items of a list make the moves of the list, but for the separators. -/
theorem indent_not_mem_separated {s : String} {items : List Doc} {scope : Option TypeScope}
    (h : ∀ item ∈ items, .indent ∉ item.moves scope) :
    .indent ∉ (separated s items).moves scope := by
  have hlevel : Compositional fun d => .indent ∉ d.moves scope :=
    ⟨List.not_mem_nil, fun _ _ h h' => List.not_mem_append h h'⟩
  exact hlevel.separated (fun _ h => h) (by simp [moves]) h

/-- A list that fails at its own level of indentation stays in progress, at the column where it
began. -/
theorem alignment_run_of_failure (hp : p.writer.alignment = none)
    (hlevel : .indent ∉ (aligned d).moves p.scope)
    (hfailed : ((aligned d).run options column p).failure ≠ none) :
    ((aligned d).run options column p).pass.writer.alignment =
      some p.writer.nextPosition.virtualColumn := by
  obtain ⟨begun, hbegun⟩ : ∃ begun : Pass, begun = { p with writer := p.writer.beginList.1 } :=
    ⟨_, rfl⟩
  have hcolumn : begun.writer.alignment = some p.writer.nextPosition.virtualColumn := by
    rw [hbegun, Writer.beginList, hp]
  have hbody : (d.run options p.writer.beginList.2.1 begun).pass.writer.alignment =
      some p.writer.nextPosition.virtualColumn :=
    alignment_run_of_level hcolumn (hbegun ▸ hlevel) _
  rw [hbegun] at hbody
  simp only [run, Outcome.onDone] at hfailed ⊢
  split
  · next hdone => simp [hdone] at hfailed
  · exact hbody

/-- A list that is begun when none is in progress. Rendered to its end, it is in progress no more,
whatever lists are inside it. An error leaves a list in progress or not as the items say; one that
comes at the level of indentation of the list leaves the list itself in progress, at the column
where it began. -/
theorem separated_releases (options : Options) (column : Nat) {p : Pass} (s : String)
    (items : List Doc) (hp : p.writer.alignment = none) :
    let list := separated s items
    let o := list.run options column p
    (o.failure = none → o.pass.writer.alignment = none) ∧
    (o.pass.writer.alignment = none ↔ list.endsInList options.strict p.scope false = false) ∧
    (o.failure ≠ none → (∀ item ∈ items, .indent ∉ item.moves p.scope) →
      o.pass.writer.alignment = some p.writer.nextPosition.virtualColumn) := by
  intro list o
  obtain ⟨d, hd⟩ : ∃ d, list = aligned d := ⟨_, rfl⟩
  have hnone : o.pass.writer.alignment = none ↔
      list.endsInList options.strict p.scope false = false := by
    have hend := isSome_alignment_run options list column p
    rw [hp] at hend
    rw [← Option.isNone_iff_eq_none, ← Option.isSome_eq_false_iff]
    exact iff_of_eq (congrArg (· = false) hend)
  refine ⟨fun hdone => hnone.2 ?_, hnone, fun hfailed hlevel => ?_⟩
  · have hevents := run_failure options list column p
    rw [show (list.run options column p).failure = none from hdone, hd] at hevents
    rw [hd]
    exact endsInList_aligned hevents.symm
  · have hlist : .indent ∉ list.moves p.scope := indent_not_mem_separated hlevel
    have ho : o = (aligned d).run options column p := congrArg (·.run options column p) hd
    rw [hd] at hlist
    rw [ho] at hfailed ⊢
    exact alignment_run_of_failure hp hlist hfailed

/-- A call is begun, where lines longer than eight characters break. -/
def callBegun : Pass := (Pass.initial .initial).mapWriter (·.write "f(")

/-- The only argument of a call; there is a fault after its first letter. -/
def faultyArguments : List Doc := [text "a" ++ malformed "x"]

theorem faultyArguments_releases :
    callBegun.writer.alignment = none ∧
    (let o := (separated ", " [text "a", separated " | " [text "b", text "c"]]).run .initial 0
      callBegun
    o.failure = none ∧ o.pass.writer.alignment = none) ∧
    (let o := (separated ", " faultyArguments).run .initial 0 callBegun
    o.failure ≠ none ∧ (∀ item ∈ faultyArguments, .indent ∉ item.moves none) ∧
      o.pass.writer.alignment = some 2) := by
  have hfault : ∀ item ∈ faultyArguments, .indent ∉ item.moves none := by
    refine List.forall_mem_singleton.2 fun h => ?_
    rcases List.mem_append.1 h with h | h <;> cases List.mem_singleton.1 h
  refine ⟨rfl, ⟨rfl, ?_⟩, nofun, hfault, ?_⟩
  · exact (separated_releases .initial 0 (p := callBegun) ", " _ rfl).1 rfl
  · exact (separated_releases .initial 0 (p := callBegun) ", " faultyArguments rfl).2.2 nofun hfault

/-- After an error in the arguments of a call, those of the next call break to the column of the
first. -/
theorem faultyArguments_misalign :
    let options : Options := { Options.initial with wrapColumn := 8 }
    let o := (separated ", " faultyArguments).run options 0 callBegun
    let next := newline ++ text "call(" ++ separated ", " [text "aaaa", text "bb"]
    callBegun.writer.alignment = none ∧ o.failure = some (.malformed "x") ∧
      o.pass.writer.alignment ≠ none ∧
      (next.run options 0 o.pass).pass.writer.text = "f(a\ncall(aaaa,\n  bb" ∧
      (next.run options 0 o.pass).pass.writer.text ≠ "f(a\ncall(aaaa,\n     bb" := by
  intro options o next
  have htext : (next.run options 0 o.pass).pass.writer.text = "f(a\ncall(aaaa,\n  bb" := by
    decide +kernel
  refine ⟨rfl, rfl, nofun, htext, ?_⟩
  rw [htext]
  decide

end Doc

end SourcePrinter
