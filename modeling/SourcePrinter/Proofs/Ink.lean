import SourcePrinter.Proofs.Depth
import SourcePrinter.Proofs.Dialect
import SourcePrinter.Proofs.Runs

/-! What no layout changes. The ink of a text is what is left of it without spaces, tabs and line
feeds. The ink that a document leaves, the nodes that it shows and how it ends depend on the
document alone: not on the column at which lists wrap, not on the look of the indentation, and not
on the gap between types. -/

namespace SourcePrinter

open Doc

/-- The characters of a text other than spaces, tabs and line feeds. -/
def ink (s : String) : List Char := s.toList.filter isInk

/-! ### Writers -/

namespace Writer

variable (w : Writer)

theorem ink_put (c : Char) : ink (w.put c).text = ink w.text ++ [c].filter isInk := by
  simp only [ink, put, String.toList_push, List.filter_append]

theorem ink_putMany {c : Char} (hc : isInk c = false) (n : Nat) :
    ink (w.putMany c n).text = ink w.text := by
  induction n generalizing w with
  | zero => rfl
  | succ n ih =>
    rw [putMany, ih, ink_put]
    simp [hc]

theorem ink_newline : ink w.newline.text = ink w.text := by
  show ink (w.put '\n').text = _
  rw [ink_put]
  exact List.append_nil _

theorem ink_settle : ink w.settle.text = ink w.text := by
  have hc : isInk (w.indentation.fill w.level).2 = false := by
    unfold Indentation.fill
    split <;> rfl
  unfold settle
  split
  · exact w.ink_putMany hc _
  · rfl

theorem ink_writeChar (c : Char) :
    ink (w.writeChar c).text = ink w.text ++ [c].filter isInk := by
  unfold writeChar
  split
  · next hc =>
    subst hc
    exact w.ink_newline.trans (List.append_nil _).symm
  · rw [ink_put, ink_settle]

theorem ink_writeChars (text : List Char) :
    ink (w.writeChars text).text = ink w.text ++ text.filter isInk := by
  induction text generalizing w with
  | nil => exact (List.append_nil _).symm
  | cons c more ih =>
    rw [writeChars_cons, ih, ink_writeChar, List.append_assoc, ← List.filter_append]
    rfl

theorem ink_ensureLineStart : ink w.ensureLineStart.text = ink w.text := by
  unfold ensureLineStart
  split
  · rfl
  · exact w.ink_newline

theorem ink_blankLines (count : Nat) : ink (w.blankLines count).text = ink w.text := by
  induction count generalizing w with
  | zero => rfl
  | succ count ih => rw [blankLines, ih, ink_newline]

theorem ink_padTo (column : Nat) : ink (w.padTo column).text = ink w.text := by
  simp only [padTo]
  rw [ink_putMany _ rfl, ink_putMany _ rfl]

/-- A separator leaves its ink whether it breaks the line or not. -/
theorem ink_writeSeparator {s : String} (hs : Separates s) (threshold column : Nat) :
    ink (w.writeSeparator s threshold column).1.text = ink w.text ++ ink s := by
  unfold writeSeparator
  split
  · exact w.ink_writeChars _
  · rw [ink_padTo, ink_newline, ink_writeChars, hs.2]
    rfl

theorem ink_endList (owned : Bool) : ink (w.endList owned).text = ink w.text := by
  unfold endList
  split <;> rfl

end Writer

/-! ### Documents -/

namespace Doc

/-- The ink of a document in a type, or outside any, with the remarks on gaps. -/
def ink : Doc → Option TypeScope → List Char
  | empty, _ | newline, _ | lineStart, _ | typeGap, _ | malformed _, _ => []
  | text s, _ | separator s, _ => SourcePrinter.ink s
  | append first second, scope => first.ink scope ++ second.ink scope
  | nested body, scope | aligned body, scope | node _ body, scope | synthetic _ body, scope
  | unsupported _ body, scope => body.ink scope
  | inside inner body, _ => body.ink (some inner)
  | perScope body, scope => (body scope).ink scope

/-- Every separator of the document is one, and nothing parts types except in a unit. -/
def Neat (ofUnit : Prop) : Doc → Prop
  | empty | text _ | newline | lineStart | malformed _ => True
  | typeGap => ofUnit
  | separator s => Separates s
  | append first second => first.Neat ofUnit ∧ second.Neat ofUnit
  | nested body | aligned body | node _ body | synthetic _ body | inside _ body
  | unsupported _ body => body.Neat ofUnit
  | perScope body => ∀ scope, (body scope).Neat ofUnit

/-- The document leaves an empty text empty. -/
def Silent : Doc → Option TypeScope → Prop
  | empty, _ | lineStart, _ | typeGap, _ | malformed _, _ => True
  | newline, _ | separator _, _ => False
  | text s, _ => s = ""
  | append first second, scope => first.Silent scope ∧ second.Silent scope
  | nested body, scope | aligned body, scope | node _ body, scope | synthetic _ body, scope
  | unsupported _ body, scope => body.Silent scope
  | inside inner body, _ => body.Silent (some inner)
  | perScope body, scope => (body scope).Silent scope

theorem Wordy.neat {d : Doc} (h : d.Wordy) (ofUnit : Prop) : d.Neat ofUnit := by
  induction d with
  | append first second ih ih' => exact ⟨ih h.1, ih' h.2⟩
  | nested body ih | aligned body ih => exact ih h
  | separator => exact h
  | empty | text | newline | lineStart => trivial
  | typeGap | node | synthetic | inside | perScope | unsupported | malformed => exact h.elim

variable {options : Options} {d : Doc} {column : Nat} {p q : Pass} {f : Forest Visited}
variable {ofUnit : Prop}

/-- A run adds the ink of its document. -/
theorem Runs.ink_eq (h : Runs options d column p f q) (hd : d.Neat ofUnit) :
    SourcePrinter.ink q.writer.text = SourcePrinter.ink p.writer.text ++ d.ink p.scope := by
  induction h with
  | empty => exact (List.append_nil _).symm
  | append h _ ih ih' =>
    rw [ih' hd.2, ih hd.1, h.surroundings.1, List.append_assoc]
    rfl
  | text => exact Writer.ink_writeChars _ _
  | newline => exact (Writer.ink_newline _).trans (List.append_nil _).symm
  | lineStart => exact (Writer.ink_ensureLineStart _).trans (List.append_nil _).symm
  | typeGap => exact (Writer.ink_blankLines _ _).trans (List.append_nil _).symm
  | separator => exact Writer.ink_writeSeparator _ hd _ _
  | nested _ ih => exact ih hd
  | @aligned body column p q f _ ih =>
    have hbegin : p.writer.beginList.1.text = p.writer.text := by
      unfold Writer.beginList
      split <;> rfl
    have hbody := ih hd
    rw [show (p.mapWriter fun w => w.beginList.1).writer.text = p.writer.text from hbegin] at hbody
    exact (Writer.ink_endList _ _).trans hbody
  | node _ _ _ ih | unseen _ _ ih | inside _ ih => exact ih hd
  | synthetic _ ih =>
    have hbody := ih hd
    rw [Pass.writer_markSynthetic, Pass.scope_markSynthetic] at hbody
    rw [Pass.writer_unmarkSynthetic]
    exact hbody
  | perScope _ ih => exact ih (hd _)
  | unsupported _ _ ih => exact ih hd

end Doc

/-! ### Empty texts -/

namespace Writer

/-- As long as the text is empty, it is at the start of a line. -/
def Fresh (w : Writer) : Prop := w.text = "" → w.atLineStart = true

variable {w v : Writer} {a : List Char}

theorem Grows.text_ne (h : w.Grows a v) (hw : w.text ≠ "") : v.text ≠ "" := by
  intro hv
  have htext := h.text
  rw [hv] at htext
  have hnil : w.text.toList = [] := (List.append_eq_nil_iff.1 htext.symm).1
  exact hw (String.toList_inj.1 hnil)

theorem text_put_ne (w : Writer) (c : Char) : (w.put c).text ≠ "" := by
  intro h
  have hlist := congrArg String.toList h
  simp [put] at hlist

theorem text_writeChars_eq (w : Writer) (text : List Char) :
    (w.writeChars text).text = "" ↔ w.text = "" ∧ text = [] := by
  cases text with
  | nil => simp
  | cons c more =>
    have hc : (w.writeChar c).text ≠ "" := by
      unfold writeChar
      split
      · exact text_put_ne w '\n'
      · exact text_put_ne w.settle c
    obtain ⟨added, hadded⟩ := writeChars_grows (w.writeChar c) more
    simp [hadded.text_ne hc]

/-- A separator is written, or a line feed in its place. -/
theorem text_writeSeparator_ne (w : Writer) {s : String} (hs : s ≠ "") (threshold column : Nat) :
    (w.writeSeparator s threshold column).1.text ≠ "" := by
  unfold writeSeparator
  split
  · exact fun h => hs (String.toList_inj.1 ((text_writeChars_eq w s.toList).1 h).2)
  · obtain ⟨added, hadded⟩ := padTo_adds (w.writeChars (trimEnd s.toList)).newline column
    intro h
    have htext := hadded.text
    rw [h] at htext
    have hnil := (List.append_eq_nil_iff.1 htext.symm).1
    exact text_put_ne _ _ (String.toList_inj.1 hnil)

end Writer

namespace Doc

variable {options : Options} {d : Doc} {column : Nat} {p q : Pass} {f : Forest Visited}

/-- Outside units, a text is empty at the end of a run if it was before and the document is
silent. -/
theorem Runs.text_eq_empty (h : Runs options d column p f q) (hd : d.Neat False)
    (hp : p.writer.Fresh) :
    q.writer.Fresh ∧ (q.writer.text = "" ↔ p.writer.text = "" ∧ d.Silent p.scope) := by
  induction h with
  | empty => exact ⟨hp, by simp [Silent]⟩
  | @append first second column p q r _ _ h _ ih ih' =>
    obtain ⟨hq, hfirst⟩ := ih hd.1 hp
    obtain ⟨hr, hsecond⟩ := ih' hd.2 hq
    refine ⟨hr, ?_⟩
    rw [hsecond, hfirst, h.surroundings.1, and_assoc]
    rfl
  | @text s column p =>
    have hs : (p.writer.write s).text = "" ↔ p.writer.text = "" ∧ s = "" := by
      rw [Writer.write, Writer.text_writeChars_eq, String.toList_eq_nil_iff]
    refine ⟨fun hq => ?_, hs⟩
    obtain ⟨htext, rfl⟩ := hs.1 hq
    exact hp htext
  | @newline column p =>
    have hne : p.writer.newline.text ≠ "" := Writer.text_put_ne _ _
    exact ⟨fun hq => absurd hq hne, iff_of_false hne fun hd => hd.2⟩
  | @lineStart column p =>
    have hq : p.writer.ensureLineStart.text = "" ↔ p.writer.text = "" := by
      unfold Writer.ensureLineStart
      split
      · rfl
      -- A line feed is due, so a line has begun and the text is not empty.
      · next hs => exact iff_of_false (Writer.text_put_ne _ _) fun ht => hs (hp ht)
    refine ⟨fun ht => ?_, hq.trans (and_iff_left trivial).symm⟩
    have hstart : p.writer.atLineStart = true := hp (hq.1 ht)
    show (if p.writer.atLineStart then p.writer else p.writer.newline).atLineStart = true
    rw [if_pos hstart]
    exact hstart
  | typeGap => exact hd.elim
  | @separator s column p =>
    have hne := p.writer.text_writeSeparator_ne hd.1 options.wrapColumn column
    exact ⟨fun hq => absurd hq hne, iff_of_false hne fun hd => hd.2⟩
  | nested _ ih => exact ih hd hp
  | @aligned body column p q f _ ih =>
    have hbegin : p.writer.beginList.1.text = p.writer.text ∧
        p.writer.beginList.1.atLineStart = p.writer.atLineStart := by
      unfold Writer.beginList
      split <;> exact ⟨rfl, rfl⟩
    have hend : (q.writer.endList p.writer.beginList.2.2).text = q.writer.text ∧
        (q.writer.endList p.writer.beginList.2.2).atLineStart = q.writer.atLineStart := by
      unfold Writer.endList
      split <;> exact ⟨rfl, rfl⟩
    have hfresh : p.writer.beginList.1.Fresh := by
      unfold Writer.Fresh
      rw [hbegin.1, hbegin.2]
      exact hp
    have hbody := ih hd hfresh
    unfold Writer.Fresh at hbody ⊢
    simp only [Pass.mapWriter, hbegin.1, hend.1, hend.2] at hbody ⊢
    exact hbody
  | node _ _ _ ih | unseen _ _ ih | inside _ ih => exact ih hd hp
  | synthetic _ ih =>
    have hbody := ih hd (by simpa using hp)
    rw [Pass.writer_markSynthetic, Pass.scope_markSynthetic] at hbody
    rw [Pass.writer_unmarkSynthetic]
    exact hbody
  | perScope _ ih => exact ih (hd _) hp
  | unsupported _ _ ih => exact ih hd hp

end Doc

/-! ### Languages -/

/-- The documents of the parts are neat. -/
def Context.Neat (c : Context) : Prop := ∀ (p : Part) (ofUnit : Prop), (p.doc c).Neat ofUnit

/-- What is put together from neat parts is neat. -/
theorem Composed.neat {hooks : Hooks} {faults : Faults} {whole : Prop} {c alt : Context} {n : Node}
    {d d' : Doc} {o : Outline} {ofUnit : Prop} (h : Composed hooks faults whole c alt n d d' o)
    (hw : hooks.Wordy) (hc : c.Neat) (hn : ∀ u, n = .unit u → ofUnit) : d.Neat ofUnit := by
  induction h with
  | words hd => exact hd.neat ofUnit
  | typeGap hu => exact hn _ hu
  | part p => exact hc p ofUnit
  | beside _ _ ih ih' | before _ _ ih ih' => exact ⟨ih, ih'⟩
  | trim _ ih => exact ih.1
  | nested _ ih | aligned _ ih | inside _ ih | equal _ _ ih | unordered _ ih | within _ _ _ ih =>
    exact ih
  | perScope _ ih => exact ih
  | gap => exact (hw.inlineComment _).neat ofUnit
  | fault => trivial
  | @carried e => exact hc (.expression e) ofUnit
  | detached _ _ _ ih ih' => exact ⟨ih, ih'⟩

namespace Language.Composes

variable {l : Language} {faults : Faults} {c : Context}

theorem guarded_neat (h : l.Composes faults) (hl : c.Speaks l) (hc : c.Neat) {d : Doc}
    {ofUnit : Prop} (hd : d.Neat ofUnit) (condition : Option Expression) :
    (l.guarded c condition d).Neat ofUnit := by
  cases condition with
  | none => exact hd
  | some e =>
    have hstart : Composed l.hooks faults False c c (.expression e) _ _ _ :=
      h.conditionStart e hl
    have hneat : (l.units.conditionStart c e).Neat ofUnit := hstart.neat h.wordy hc nofun
    exact ⟨⟨⟨⟨⟨⟨trivial, hneat⟩, trivial⟩, hd⟩, trivial⟩, (h.conditionEnd c).neat _⟩, trivial⟩

/-- A rule gives a neat document in a neat context. -/
theorem written_neat (h : l.Composes faults) (hl : c.Speaks l) (hc : c.Neat) {d d' : Doc}
    {o : Outline} (hd : l.Written faults False c c d d' o) (ofUnit : Prop) : d.Neat ofUnit := by
  cases hd with
  | expression e =>
    have hrule : Composed l.hooks faults False c c (.expression e) _ _ _ := h.expression e hl
    exact hrule.neat h.wordy hc nofun
  | @typeRef t inForce =>
    have hrule : Composed l.hooks faults False c c (.typeRef t) _ _ _ := h.typeRef inForce hl
    exact hrule.neat h.wordy hc nofun
  | node hn hrule => exact hrule.neat h.wordy hc fun u hu => absurd hu (hn.ne_unit u)
  | ended hn hrule => exact ⟨hrule.neat h.wordy hc fun u hu => absurd hu (hn.ne_unit u), trivial⟩
  | @guarded n d _ _ condition _ hn hrule =>
    have hnode : d.Neat ofUnit := hrule.neat h.wordy hc fun u hu => absurd hu (hn.ne_unit u)
    exact h.guarded_neat hl hc (d := .node n.key d ++ lineStart) ⟨hnode, trivial⟩ condition

theorem context_neat (h : l.Composes faults) (setting : Setting) (depth : Nat) :
    (l.context setting depth).Neat := by
  induction depth with
  | zero =>
    intro p ofUnit
    cases p <;> trivial
  | succ depth ih =>
    intro p ofUnit
    rw [l.doc_context_succ]
    have hspeaks := l.context_speaks setting depth
    exact h.written_neat hspeaks ih (h.written hspeaks False.elim) ofUnit

/-- The documents of requests are neat; only in that of a unit types are parted. -/
theorem document_neat (h : l.Composes faults) (options : Options) (r : Request) :
    (r.document l options).Neat (∃ u definitionOnly, r = .unit u definitionOnly) := by
  cases r with
  | unit u definitionOnly =>
    obtain ⟨c, hcontext⟩ : ∃ c, c = l.context (.of options (some u) definitionOnly) u.size :=
      ⟨_, rfl⟩
    have hc : c.Neat := hcontext ▸ h.context_neat _ _
    have hrule : Composed l.hooks faults False c c (.unit u) _ _ _ :=
      h.unitRule (hcontext ▸ l.context_speaks _ _) u
    rw [Request.document, Language.unitDoc, ← hcontext]
    exact hrule.neat h.wordy hc fun _ _ => ⟨u, definitionOnly, rfl⟩
  | definition t home definitionOnly => exact h.context_neat _ _ (.definition t) _
  | member m owner home definitionOnly =>
    cases owner with
    | none => exact h.context_neat _ _ (.member m) _
    | some t => exact h.context_neat _ _ (.member m) _
  | parameter p home => exact h.context_neat _ _ (.parameter p) _
  | statement s home => exact h.context_neat _ _ (.statement s) _
  | statementText s => exact h.context_neat _ _ (.statement s) _
  | expressionText e => exact h.context_neat _ _ (.expression e) _

end Language.Composes

/-! ### Renderings -/

/-- Renderings that differ in spaces, tabs and line feeds, and in where the spans lie. -/
structure Rendering.Similar (a b : Rendering) : Prop where
  ink : ink a.text = ink b.text
  spans : ∀ k, (a.spans.get? k).isSome = (b.spans.get? k).isSome

namespace Doc

variable {options options' : Options} {d : Doc} {ofUnit : Prop} {out out' : Rendering}

/-- A neat document is rendered alike under all options with one policy. -/
theorem Neat.similar (hd : d.Neat ofUnit) (h : d.render options = .ok out)
    (h' : d.render options' = .ok out') : out.Similar out' where
  ink := by
    obtain ⟨_, q, hr, rfl⟩ := runs_of_render h
    obtain ⟨_, q', hr', rfl⟩ := runs_of_render h'
    exact (hr.ink_eq hd).trans (hr'.ink_eq hd).symm
  spans k := by
    rw [Bool.eq_iff_iff, isSome_span_iff h, isSome_span_iff h']

/-- Outside units, the text is empty under all options or under none. -/
theorem Neat.isEmpty_eq (hd : d.Neat False) (h : d.render options = .ok out)
    (h' : d.render options' = .ok out') : out.text.isEmpty = out'.text.isEmpty := by
  obtain ⟨_, q, hr, rfl⟩ := runs_of_render h
  obtain ⟨_, q', hr', rfl⟩ := runs_of_render h'
  have hq := (hr.text_eq_empty hd fun _ => rfl).2
  have hq' := (hr'.text_eq_empty hd fun _ => rfl).2
  rw [Bool.eq_iff_iff, String.isEmpty_iff, String.isEmpty_iff, hq, hq']
  rfl

end Doc

/-- The column at which lists wrap, the look of the indentation and the gap between types change
spaces, tabs and line feeds only. Under options that differ in nothing else, a request fails with
the same error, or succeeds with the same ink and with spans for the same nodes; and a statement
that writes nothing under the ones writes nothing under the others. -/
theorem Dialect.layout_is_white_space (d : Dialect) (options : Options) (wrapColumn : Nat)
    (useTabs : Bool) (tabSize typeGap : Nat) (r : Request) :
    let options' := { options with wrapColumn, useTabs, tabSize, typeGap }
    (∃ e, r.render d.language options = .error e ∧ r.render d.language options' = .error e) ∨
      ∃ out out', r.render d.language options = .ok out ∧
        r.render d.language options' = .ok out' ∧ out.Similar out' ∧
        ∀ s home, r = .statement s home → out.text.isEmpty = out'.text.isEmpty := by
  intro options'
  have hdocument : r.document d.language options' = r.document d.language options := by
    cases r <;> rfl
  have hneat := d.composes.document_neat options r
  simp only [Request.render, hdocument]
  cases h : (r.document d.language options).render options with
  | error e =>
    have hfailure := Doc.render_eq_error.1 h
    exact .inl ⟨e, rfl, Doc.render_eq_error.2 hfailure⟩
  | ok out =>
    have hfailure := Doc.exists_render_iff.1 ⟨out, h⟩
    obtain ⟨out', h'⟩ : ∃ out', (r.document d.language options).render options' = .ok out' :=
      Doc.exists_render_iff.2 hfailure
    refine .inr ⟨out, out', rfl, h', hneat.similar h h', ?_⟩
    rintro s home rfl
    have hstatement : Doc.Neat False (Request.document d.language options (.statement s home)) :=
      d.composes.context_neat _ _ (.statement s) _
    exact hstatement.isEmpty_eq h h'

end SourcePrinter
