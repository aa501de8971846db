import SourcePrinter.Proofs.Guards
import SourcePrinter.Proofs.OneLine.Dialect

/-! Conditions on the lines that start guards. A condition with texts in one line stays on the line
of its guard exactly if no list in it wraps: if each of its separators ends within the threshold. -/

namespace SourcePrinter

open Doc

/-! ### Separators -/

section

variable {options : Options} {moves : List Move} {w : Writer}

theorem due_perform (h : ∀ move ∈ moves, move.IsFlat) (hw : w.due = []) :
    (perform options moves w).due = [] := by
  induction moves generalizing w with
  | nil => exact hw
  | cons move more ih =>
    rw [List.forall_mem_cons] at h
    exact ih h.2 (Move.apply_adds options h.1 hw).2

/-- Moves in the line break none exactly if every separator among them ends within the
threshold. -/
theorem unbroken_iff (h : ∀ move ∈ moves, move.IsFlat) (hw : w.due = []) :
    Unbroken options moves w ↔ ∀ before s after, moves = before ++ .separator s :: after →
      w.position.virtualColumn + Position.width w.indentation.width (before.flatMap Move.chars) +
        s.length ≤ options.wrapColumn := by
  -- On the moves, none of which breaks the line: the columns that they take add up.
  induction moves generalizing w with
  | nil => exact iff_of_true trivial fun before s after hnil => by simp at hnil
  | cons move more ih =>
    rw [List.forall_mem_cons] at h
    obtain ⟨hadds, hdue⟩ := Move.apply_adds options h.1 hw
    have hcolumn : (move.apply options w).position.virtualColumn =
        w.position.virtualColumn + Position.width w.indentation.width move.chars := by
      rw [hadds.position, Position.virtualColumn_scan _ _ (Move.lineFeed_not_mem_chars h.1)]
    have hwidth (before : List Move) :
        Position.width w.indentation.width ((move :: before).flatMap Move.chars) =
          Position.width w.indentation.width move.chars +
            Position.width w.indentation.width (before.flatMap Move.chars) := by
      rw [List.flatMap_cons, Position.width_append]
    rw [Unbroken, ih h.2 hdue, hcolumn, hadds.indentation]
    constructor
    · rintro ⟨hfits, hmore⟩ before s after heq
      cases before with
      | nil =>
        obtain ⟨rfl, rfl⟩ := List.cons.inj heq
        exact Move.fits_separator.1 hfits
      | cons first before =>
        obtain ⟨rfl, rfl⟩ := List.cons.inj heq
        have hlater := hmore before s after rfl
        rw [hwidth]
        omega
    · intro hall
      refine ⟨?_, fun before s after heq => ?_⟩
      · cases move with
        | separator s => exact Move.fits_separator.2 (hall [] s more rfl)
        | _ => trivial
      · have hlater := hall (move :: before) s after (congrArg (move :: ·) heq)
        rw [hwidth] at hlater
        omega

/-- A separator that breaks its line writes a line feed. -/
theorem Writer.fits_of_line {w : Writer} {s : String} {threshold column : Nat} {added : List Char}
    (ht : (w.writeSeparator s threshold column).1.text.toList = w.text.toList ++ added)
    (hline : '\n' ∉ added) : w.position.virtualColumn + s.length ≤ threshold := by
  refine Decidable.byContradiction fun hfits => hline ?_
  rw [writeSeparator, if_neg hfits] at ht
  obtain ⟨a, ha⟩ := w.writeChars_grows (trimEnd s.toList)
  obtain ⟨b, hb⟩ := (w.writeChars (trimEnd s.toList)).newline.padTo_adds column
  have hbroken := (ha.toAdds.trans (newline_grows _).toAdds).trans hb
  rw [hbroken.text] at ht
  rw [← List.append_cancel_left ht]
  simp

end

/-! ### Runs -/

namespace Doc

variable {options : Options} {d : Doc} {column : Nat} {p q : Pass} {f : Forest Visited}

/-- A run in the line that writes no line feed has broken no line. -/
theorem Runs.unbroken_of_line {added : List Char} (h : Runs options d column p f q)
    (hd : d.InLine) (hp : p.writer.due = [])
    (ht : q.writer.text.toList = p.writer.text.toList ++ added) (hline : '\n' ∉ added) :
    Unbroken options (d.moves none) p.writer.bare := by
  induction h generalizing added with
  | empty => trivial
  | @append first second column p q r f g h h' ih ih' =>
    obtain ⟨a, ha⟩ := h.grows
    obtain ⟨b, hb⟩ := h'.grows
    have hadded : added = a ++ b := by
      rw [hb.text, ha.text, List.append_assoc] at ht
      exact (List.append_cancel_left ht).symm
    rw [hadded, List.mem_append, not_or] at hline
    have hfirst := ih hd.1 hp ha.text hline.1
    -- The second part starts where the moves of the first end, in the middle of the line.
    have hmoves := h.perform_eq (by rwa [hd.1.moves_eq])
    rw [hd.1.moves_eq] at hmoves
    have hq : q.writer.bare.due = [] := by
      rw [hmoves]
      exact due_perform (hd.1.flat none) hp
    exact unbroken_append.2 ⟨hfirst, hmoves ▸ ih' hd.2 hq hb.text hline.2⟩
  | text => exact ⟨trivial, trivial⟩
  | @separator s column p =>
    have hfits := Writer.fits_of_line (w := p.writer) ht hline
    exact ⟨Move.fits_separator.2 hfits, trivial⟩
  | @aligned body column p q f _ ih =>
    have hbegin := p.writer.beginList_grows
    have hdue : p.writer.beginList.1.due = [] := by
      rw [← hp]
      unfold Writer.beginList
      split <;> rfl
    have htext : q.writer.text.toList = p.writer.beginList.1.text.toList ++ added := by
      have hend := q.writer.endList_grows p.writer.beginList.2.2
      rw [hbegin.text, List.append_nil, ← ht]
      exact (hend.text.trans (List.append_nil _)).symm
    have hbody := ih hd hdue htext hline
    have hbare : (p.mapWriter fun w => w.beginList.1).writer.bare = p.writer.bare :=
      p.writer.bare_beginList
    rwa [hbare] at hbody
  | node _ _ _ ih | unseen _ _ ih => exact ih hd hp ht hline
  | synthetic _ ih =>
    rw [Pass.writer_markSynthetic] at ih
    rw [Pass.writer_unmarkSynthetic] at ht
    exact ih hd hp ht hline
  | unsupported _ _ ih => exact ⟨trivial, ih hd hp ht hline⟩
  | newline | lineStart | typeGap | nested | inside | perScope => exact hd.elim

end Doc

namespace Doc

variable {options : Options} {d : Doc} {column : Nat} {p q : Pass} {f : Forest Visited}

/-- A run in the line writes no line feed exactly if every separator ends within the threshold. -/
theorem Runs.lineFeed_not_mem_iff {added : List Char} (h : Runs options d column p f q)
    (hd : d.InLine) (hp : p.writer.due = [])
    (ht : q.writer.text.toList = p.writer.text.toList ++ added) :
    '\n' ∉ added ↔ ∀ before s after, d.moves none = before ++ .separator s :: after →
      p.writer.position.virtualColumn +
        Position.width p.writer.indentation.width (before.flatMap Move.chars) + s.length ≤
          options.wrapColumn := by
  have hflat := hd.flat none
  have hiff : Unbroken options (d.moves none) p.writer.bare ↔ _ := unbroken_iff hflat hp
  refine ⟨fun hline => hiff.1 (h.unbroken_of_line hd hp ht hline), fun hall hline => ?_⟩
  rw [h.adds_chars hd hp (hiff.2 hall)] at ht
  rw [← List.append_cancel_left ht] at hline
  obtain ⟨move, hmove, hline⟩ := List.mem_flatMap.1 hline
  exact Move.lineFeed_not_mem_chars (hflat move hmove) hline

end Doc

/-! ### Guards -/

/-- The line that starts a guard begins with a margin. -/
theorem Writer.starts_guard (w : Writer) : ∃ lead margin, (lead = [] ∨ lead = ['\n']) ∧
    (∀ c ∈ margin, c = ' ' ∨ c = '\t') ∧
    (w.ensureLineStart.write "#if ").text.toList =
      w.text.toList ++ lead ++ margin ++ "#if ".toList ∧
    (w.ensureLineStart.write "#if ").due = [] ∧
    (w.ensureLineStart.write "#if ").indentation = w.indentation := by
  obtain ⟨lead, hlead, htext, hstart⟩ := w.ensureLineStart_lead
  obtain ⟨_, hline⟩ := w.ensureLineStart_grows
  obtain ⟨_, hsign⟩ := w.ensureLineStart.writeChars_grows "#if ".toList
  have hbegun : (w.ensureLineStart.write "#if ").atLineStart = false := by
    rw [write, atLineStart_writeChars _ (by decide)]
    exact Bool.and_false _
  refine ⟨lead, _, hlead, w.ensureLineStart.indentation.margin_blank w.ensureLineStart.level, ?_,
    due_of_begun hbegun, hsign.indentation.trans hline.indentation⟩
  rw [write_margin hstart (by decide) (by decide), htext]

/-- The condition of a guard follows the words that start the line, and a line feed follows it. -/
theorem Dialect.guarded_head (d : Dialect) {options : Options} {c : Context} {e : Expression}
    {x : Doc} {column : Nat} {p q : Pass} {f : Forest Visited}
    (h : Runs options (d.language.guarded c (some e) x) column p f q) : ∃ r g rest,
      Runs options (c.expression e) column
        (p.mapWriter fun w => w.ensureLineStart.write "#if ") g r ∧
      q.writer.text.toList = r.writer.text.toList ++ '\n' :: rest := by
  rw [d.guarded_some] at h
  obtain ⟨_, _, a, h, ha⟩ := h.init
  obtain ⟨_, _, b, h, hb⟩ := h.init
  obtain ⟨_, _, c, h, hc⟩ := h.init
  obtain ⟨_, _, d, h, hd⟩ := h.init
  obtain ⟨_, _, e, h, he⟩ := h.init
  obtain ⟨_, _, _, ⟨⟩, hline⟩ := h.split
  obtain ⟨r, _, _, hhead, ⟨⟩⟩ := hline.split
  obtain ⟨_, _, g, ⟨⟩, hcondition⟩ := hhead.split
  have hnewline := r.writer.newline_grows.text
  refine ⟨r, g, e ++ d ++ c ++ b ++ a, hcondition, ?_⟩
  rw [ha, hb, hc, hd, he]
  show r.writer.newline.text.toList ++ e ++ d ++ c ++ b ++ a = _
  rw [hnewline]
  simp

/-- The condition of a guard in C# or Swift, with names and raw texts in one line and no anonymous
method, stands on the line that starts the guard exactly if each separator of its lists ends within
the threshold there. Then it is what the condition is rendered to by itself, whatever stands around
the guard. Columns and tabs are of any size; they are those of a machine where the text, with what
the guard adds to it, leaves the writer in range (`Doc.run?_inRange`). -/
theorem Dialect.conditions_keep_line (d : Dialect) {options : Options} {setting : Setting}
    {depth column : Nat} {e : Expression} {x : Doc} {p q : Pass} {f : Forest Visited}
    (he : e.outline.InLine) (hdepth : e.size ≤ depth)
    (hi : p.writer.indentation = options.indentation)
    (h : Runs options (d.language.guarded (d.language.context setting depth) (some e) x) column p
      f q) :
    ∃ lead margin condition rest, (lead = [] ∨ lead = ['\n']) ∧
      (∀ c ∈ margin, c = ' ' ∨ c = '\t') ∧
      q.writer.text.toList = p.writer.text.toList ++ lead ++ margin ++ "#if ".toList ++
        condition ++ '\n' :: rest ∧
      (d.language.expressionDoc setting e).Writes options
        (p.writer.text.toList ++ lead ++ margin ++ "#if ".toList) condition ∧
      ('\n' ∉ condition ↔ ∀ before s after,
        (d.language.expressionDoc setting e).moves none = before ++ .separator s :: after →
          (p.writer.ensureLineStart.write "#if ").position.virtualColumn +
            Position.width options.indentation.width (before.flatMap Move.chars) + s.length ≤
              options.wrapColumn) ∧
      ('\n' ∉ condition → ∃ alone, (d.language.expressionDoc setting e).render options = .ok alone ∧
        alone.text.toList = condition) := by
  obtain ⟨r, g, rest, hcondition, hq⟩ := d.guarded_head h
  rw [d.composes.expression_context setting hdepth] at hcondition
  obtain ⟨lead, margin, hlead, hmargin, hstart, hdue, hindentation⟩ := p.writer.starts_guard
  obtain ⟨condition, hgrows⟩ := hcondition.grows
  have htext : r.writer.text.toList =
      (p.writer.ensureLineStart.write "#if ").text.toList ++ condition := hgrows.text
  have hline := d.expressionDoc_inLine setting he
  have hindentation : (p.mapWriter fun w => w.ensureLineStart.write "#if ").writer.indentation =
      options.indentation := hindentation.trans hi
  have hiff := hcondition.lineFeed_not_mem_iff hline hdue htext
  rw [hindentation] at hiff
  refine ⟨lead, margin, condition, rest, hlead, hmargin, ?_, ?_, hiff, fun hone => ?_⟩
  · rw [hq, htext, hstart]
  · exact ⟨column, _, g, r, hcondition, hstart, hstart ▸ htext⟩
  · -- A condition that breaks no line here breaks none at the start of a text.
    have hunbroken := hcondition.unbroken_of_line hline hdue htext hone
    obtain ⟨alone, halone, hchars⟩ :=
      hcondition.render_alone hline hdue hindentation hunbroken
    refine ⟨alone, halone, hchars.trans ?_⟩
    have hadds := hcondition.adds_chars hline hdue hunbroken
    exact List.append_cancel_left (hadds.symm.trans htext)

/-- A call with two arguments. -/
def Expression.defined : Expression :=
  ⟨1, .call ⟨none, "defined", [], [⟨⟨2, .identifier "DEBUG"⟩, none, .value⟩,
    ⟨⟨3, .identifier "TRACE"⟩, none, .value⟩], false⟩⟩

/-- A class that is compiled where the call holds. -/
def TypeDefinition.traced : TypeDefinition :=
  ⟨1, "Probe", ⟨.unspecified, some .defined, [], none⟩,
    .classType ⟨[], [], [], [], false, false, false, false⟩⟩

theorem TypeDefinition.traced_keeps_line :
    Expression.defined.outline.InLine ∧ Expression.defined.size ≤ traced.size - 1 ∧
      (Pass.initial .initial).writer.indentation = Options.initial.indentation ∧
      ∃ f q, Runs .initial (Language.csharp.definitionDoc (.of .initial none false) traced) 0
        (.initial .initial) f q ∧
        ∃ lead margin condition rest, q.writer.text.toList =
          lead ++ margin ++ "#if ".toList ++ condition ++ '\n' :: rest ∧ '\n' ∉ condition := by
  have hline : Expression.defined.outline.InLine := by decide
  have hsize : Expression.defined.size ≤ traced.size - 1 := by decide
  obtain ⟨out, hout⟩ : ∃ out,
      (Language.csharp.definitionDoc (.of .initial none false) traced).render .initial = .ok out :=
    ⟨_, rfl⟩
  obtain ⟨f, q, hruns, -⟩ := runs_of_render hout
  obtain ⟨lead, margin, condition, rest, -, -, htext, -, hiff, -⟩ :=
    Dialect.conditions_keep_line .csharp hline hsize rfl hruns
  have hunbroken : Unbroken .initial
      ((Language.csharp.expressionDoc (.of .initial none false) .defined).moves none)
      ((Writer.new Options.initial.indentation).write "#if ") := by decide
  have hflat := (Dialect.csharp.expressionDoc_inLine (.of .initial none false) hline).flat none
  exact ⟨hline, hsize, rfl, f, q, hruns, lead, margin, condition, rest, htext,
    hiff.2 ((unbroken_iff hflat (by decide)).1 hunbroken)⟩

/-- Under a threshold that the call does not keep, the line ends in the middle of the condition. -/
theorem TypeDefinition.traced_breaks_line :
    Expression.defined.outline.InLine ∧ ∃ out,
      (Language.csharp.definitionDoc (.of .initial none false) traced).render
        { Options.initial with wrapColumn := 8 } = .ok out ∧
      out.text = "#if defined(DEBUG,\n            TRACE)\nclass Probe\n\x7b\n\x7d\n#endif\n" :=
  ⟨by decide, _, rfl, by decide +kernel⟩

end SourcePrinter
