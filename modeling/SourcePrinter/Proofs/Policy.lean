import SourcePrinter.Proofs.Dialect
import SourcePrinter.Proofs.Runs

/-! The two policies on gaps. A strict run and a lenient one are the same run up to the first gap.
There the strict run ends with an error, and the lenient run writes the message of that error as a
comment and goes on. -/

namespace SourcePrinter

namespace Doc

variable {options : Options} {d : Doc} {column : Nat} {p q : Pass} {f : Forest Visited}

/-- What runs under a policy runs the same way under the lenient one. -/
theorem Runs.lenient (h : Runs options d column p f q) :
    Runs { options with strict := false } d column p f q := by
  induction h with
  | empty => exact .empty
  | append _ _ ih ih' => exact .append ih ih'
  | text => exact .text
  | newline => exact .newline
  | lineStart => exact .lineStart
  | typeGap => exact .typeGap
  | nested _ ih => exact .nested ih
  | aligned _ ih => exact .aligned ih
  | separator => exact .separator
  | node hr hk _ ih => exact .node hr hk ih
  | unseen hn _ ih => exact .unseen hn ih
  | synthetic _ ih => exact .synthetic ih
  | inside _ ih => exact .inside ih
  | perScope _ ih => exact .perScope ih
  | unsupported _ _ ih => exact .unsupported rfl ih

/-- A lenient rendering gives what the strict one does. -/
theorem render_lenient {out : Rendering} (h : d.render options = .ok out) :
    d.render { options with strict := false } = .ok out := by
  obtain ⟨f, q, hr, rfl⟩ := runs_of_render h
  exact hr.lenient.render_eq

end Doc

/-! ### The remark -/

theorem Brace.spaceClosers_of_plain (text : List Char) (h : '*' ∉ text) :
    spaceClosers text = text := by
  induction text using spaceClosers.induct with
  | case1 | case2 => simp [spaceClosers]
  | case3 c d rest hc _ => exact absurd (hc.1 ▸ List.mem_cons_self) h
  | case4 c d rest hc ih =>
    rw [spaceClosers, if_neg hc, ih fun hm => h (List.mem_cons_of_mem _ hm)]

theorem Plain.append {s t : String} (hs : Plain s) (ht : Plain t) : Plain (s ++ t) := by
  intro c hc
  rw [String.toList_append, List.mem_append] at hc
  exact hc.elim (hs c) (ht c)

/-- The message of a gap in plain words is in plain words. -/
theorem Gap.Plain.message {g : Gap} (h : g.Plain) (hl : SourcePrinter.Plain g.language) :
    SourcePrinter.Plain g.message := by
  have hwords : SourcePrinter.Plain " is not supported by the " := .of_chars (by decide)
  have hbackend : SourcePrinter.Plain " backend" := .of_chars (by decide)
  have hgap := ((h.construct.append hwords).append hl).append hbackend
  rw [Gap.message]
  cases hg : g.detail with
  | none => exact hgap.append (.of_chars (by decide))
  | some detail =>
    have hopen : SourcePrinter.Plain " (" := .of_chars (by decide)
    have hclose : SourcePrinter.Plain ")" := .of_chars (by decide)
    exact hgap.append ((hopen.append (h.detail detail hg)).append hclose)

/-- The comment that stands for a gap. -/
def Gap.comment (g : Gap) : String := "/* " ++ (RenderError.unsupported g).message ++ " */"

/-- A language whose comments in a line are those of the languages with curly braces. -/
structure Hooks.Braces (h : Hooks) : Prop where
  inlineComment : h.inlineComment = Brace.inlineComment
  name : Plain h.name

theorem Dialect.braces (d : Dialect) : d.language.hooks.Braces := by
  cases d with
  | csharp => exact ⟨rfl, .of_chars (by decide)⟩
  | swift lowercaseCases =>
    have hname : Plain "Swift" := .of_chars (by decide)
    exact ⟨rfl, hname⟩

namespace Doc

variable {options : Options} {d : Doc} {column : Nat} {p q : Pass} {f : Forest Visited}

/-- A comment in plain words is written as it is. -/
theorem Runs.comment {s : String} (h : Runs options (Brace.inlineComment s) column p f q)
    (hs : Plain s) : ("/* " ++ s ++ " */").toList <:+ q.writer.text.toList := by
  have hclosers : Brace.spaceClosers s.toList = s.toList :=
    Brace.spaceClosers_of_plain _ fun hm => (hs _ hm).1 rfl
  have hfeed : '\n' ∉ ("/* " ++ s ++ " */").toList := by
    simp only [String.toList_append, List.mem_append, not_or]
    exact ⟨⟨by decide, fun hm => (hs _ hm).2 rfl⟩, by decide⟩
  have hq : q.writer = p.writer.writeChars ("/* " ++ s ++ " */").toList := by
    cases h with
    | append h hclose =>
      cases h with
      | append hopen hwords =>
        cases hopen
        cases hwords
        cases hclose
        simp only [Pass.mapWriter, Writer.write, hclosers, String.toList_ofList,
          String.toList_append, Writer.writeChars_append]
  rw [hq, Writer.writeChars_text hfeed (by simp)]
  exact List.suffix_append _ _

/-- What a run has written stays. -/
theorem Runs.text_kept (h : Runs options d column p f q) :
    p.writer.text.toList <+: q.writer.text.toList := by
  obtain ⟨added, ha⟩ := h.grows
  exact ⟨added, ha.text.symm⟩

/-- A run that comes to its end has written the comment on the first gap. -/
theorem Runs.remarks {hooks : Hooks} (hb : hooks.Braces) {g : Gap}
    (h : Runs options d column p f q) (hr : (d.events p.scope).Remarked hooks)
    (hg : (d.events p.scope).failure true = some (.unsupported g)) :
    g.comment.toList <:+: q.writer.text.toList := by
  induction h with
  | empty | text | newline | lineStart | typeGap | separator => cases hg
  | @append first second column p q r _ _ h h' ih ih' =>
    rw [events, Events.remarked_append] at hr
    rw [events, Events.failure_append, Option.or_eq_some_iff] at hg
    -- The first gap is in the first part, whose text is kept, or in the second if there is none.
    rcases hg with hg | ⟨-, hg⟩
    · exact (ih hr.1 hg).trans h'.text_kept.isInfix
    · have hs := h.surroundings.1
      rw [← hs] at hr hg
      exact ih' hr.2 hg
  | nested _ ih => exact ih hr hg
  | @aligned body column p q f _ ih =>
    have hw : (q.writer.endList p.writer.beginList.2.2).text = q.writer.text := by
      unfold Writer.endList
      split <;> rfl
    show _ <:+: (q.writer.endList p.writer.beginList.2.2).text.toList
    rw [hw]
    exact ih hr hg
  | node _ _ _ ih | unseen _ _ ih =>
    exact ih hr.1 (by simpa [events, Events.failure] using hg)
  | synthetic _ ih =>
    have hi := ih (by simpa using hr.1) (by simpa [events, Events.failure] using hg)
    simpa using hi
  | inside _ ih => exact ih hr hg
  | perScope _ ih => exact ih hr hg
  | @unsupported gap remark column p q f _ h _ =>
    obtain ⟨hl, hp, hm, -⟩ := hr
    cases hg
    subst hm
    rw [hb.inlineComment] at h
    exact (h.comment (hp.message (hl ▸ hb.name))).isInfix

end Doc

/-! ### Requests -/

/-- The policy has no part in what is to be written. -/
theorem Request.document_policy (l : Language) (options : Options) (strict : Bool) (r : Request) :
    r.document l { options with strict } = r.document l options := by
  cases r <;> rfl

/-- A statement that returns the result variable, which C# does not have. -/
def Request.returnResult : Request := .statement ⟨1, .returning (some ⟨1, .result⟩)⟩ none

end SourcePrinter
