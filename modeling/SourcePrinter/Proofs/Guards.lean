import SourcePrinter.Proofs.Bookkeeping
import SourcePrinter.Proofs.Constructs.Dialect
import SourcePrinter.Proofs.Directives

/-! Guards: the text of a construct that has a condition stands between two lines of its own, and
what is no part of the construct stands outside. -/

namespace SourcePrinter

open Doc

/-! ### Texts around constructs -/

/-- In some rendering that has written `before`, the document adds `text`. -/
def Doc.Writes (options : Options) (x : Doc) (before text : List Char) : Prop :=
  ∃ column p f q, Runs options x column p f q ∧ p.writer.text.toList = before ∧
    q.writer.text.toList = before ++ text

/-- A text with the constructs of a forest in it, after the text before it. A construct with a
condition stands between two lines of one margin, after the end of the line before. -/
inductive Laid (l : Language) (options : Options) (setting : Setting) :
    List Char → List Char → Forest Construct → Prop where
  | code {before text : List Char} : calm text = true → Laid l options setting before text .nil
  | append {before s t : List Char} {f g : Forest Construct} :
    Laid l options setting before s f → Laid l options setting (before ++ s) t g →
    Laid l options setting before (s ++ t) (f ++ g)
  | bare {before text : List Char} {k : Construct} {f : Forest Construct} :
    k.condition = none → (k.document l setting).Writes options before text →
    Laid l options setting before text f →
    Laid l options setting before text (.node k f .nil)
  | guarded {before lead margin condition head text : List Char} {k : Construct} {e : Expression}
      {f : Forest Construct} :
    k.condition = some e → lead = [] ∨ lead = ['\n'] → endsLine true (before ++ lead) = true →
    (∀ c ∈ margin, c = ' ' ∨ c = '\t') →
    (l.expressionDoc setting e).Writes options (before ++ lead ++ margin ++ "#if ".toList)
      condition →
    calm condition = true → head = lead ++ margin ++ "#if ".toList ++ condition ++ ['\n'] →
    (k.document l setting).Writes options (before ++ head) text → endsLine true text = true →
    Laid l options setting (before ++ head) text f →
    Laid l options setting before (head ++ text ++ margin ++ "#endif\n".toList) (.node k f .nil)

variable {l : Language} {options : Options} {setting : Setting} {before text : List Char}
variable {f : Forest Construct}

/-- The directives of a text are those around its constructs, and nothing but spaces and tabs
stands before them on their lines. -/
theorem Laid.directives_eq (h : Laid l options setting before text f) (more : List Char) :
    directives (blankLine true before) (text ++ more) =
      f.guards.map (·, true) ++ directives (blankLine true (before ++ text)) more := by
  induction h generalizing more with
  | code hc => rw [directives_append_of_calm _ hc, blankLine_append, Forest.guards]; rfl
  | append _ _ ih ih' =>
    rw [List.append_assoc, ih, ih', Forest.guards_append, List.map_append, List.append_assoc,
      List.append_assoc]
  | bare hk _ _ ih =>
    rw [ih, Forest.guards, hk]
    simp [Forest.guards]
  | @guarded before lead margin condition head text k e f hk hlead hstart hmargin _ hcalm hhead _
      hend _ ih =>
    have hleadCalm : calm lead = true := by rcases hlead with rfl | rfl <;> rfl
    have hleadLine : blankLine (blankLine true before) lead = true := by
      rw [← blankLine_append]
      exact blankLine_of_endsLine hstart
    have hline : endsLine true (before ++ head) = true := by
      rw [hhead, ← List.append_assoc, endsLine_append]
      rfl
    have htext : endsLine true (before ++ head ++ text) = true := by
      rw [endsLine_append, hline, hend]
    have hlast : blankLine true (before ++ (head ++ text ++ margin ++ "#endif\n".toList)) = true := by
      rw [← List.append_assoc, blankLine_append]
      rfl
    have hguards : (Forest.node k f .nil).guards = .start :: f.guards ++ [.stop] := by
      rw [Forest.guards, hk]
      rfl
    rw [hlast, hguards]
    -- The line that starts the guard, what stands in it, and the line that ends it, each read on
    -- from where the one before it left off.
    calc directives (blankLine true before) (head ++ text ++ margin ++ "#endif\n".toList ++ more)
      _ = directives (blankLine true before)
            (head ++ (text ++ (margin ++ "#endif\n".toList ++ more))) := by
        simp only [List.append_assoc]
      _ = (.start, true) :: directives true (text ++ (margin ++ "#endif\n".toList ++ more)) := by
        rw [hhead, directives_start hleadCalm hleadLine hmargin hcalm]
      _ = (.start, true) :: (f.guards.map (·, true) ++
            directives true (margin ++ "#endif\n".toList ++ more)) := by
        have hinner := ih (margin ++ "#endif\n".toList ++ more)
        rw [blankLine_of_endsLine hline, blankLine_of_endsLine htext] at hinner
        rw [hinner]
      _ = (Directive.start :: f.guards ++ [Directive.stop]).map (·, true) ++ directives true more := by
        rw [directives_stop hmargin]
        simp

namespace Doc

variable {d : Doc} {column : Nat} {p q : Pass} {g : Forest Visited}

theorem Runs.starts (h : Runs options d column p g q) (hp : p.writer.Starts) :
    q.writer.Starts := by
  induction h with
  | empty => exact hp
  | append _ _ ih ih' => exact ih' (ih hp)
  | text => exact hp.writeChars _
  | newline => exact (Writer.Ended.newline _).starts
  | lineStart => exact hp.ensureLineStart
  | typeGap => exact hp.blankLines _
  | separator => exact hp.writeSeparator _ _ _
  | nested _ ih => exact ih hp
  | aligned _ ih =>
    have hbody := ih hp.beginList
    exact hbody.endList _
  | node _ _ _ ih | unseen _ _ ih | inside _ ih | perScope _ ih | unsupported _ _ ih => exact ih hp
  | synthetic _ ih => simpa using ih (by simpa using hp)

theorem Runs.split {x y : Doc} (h : Runs options (x ++ y) column p g q) :
    ∃ r g₁ g₂, Runs options x column p g₁ r ∧ Runs options y column r g₂ q := by
  cases h with
  | append hx hy => exact ⟨_, _, _, hx, hy⟩

/-- What follows adds to the text of what stands before. -/
theorem Runs.init {x y : Doc} (h : Runs options (x ++ y) column p g q) : ∃ r g₁ more,
    Runs options x column p g₁ r ∧ q.writer.text.toList = r.writer.text.toList ++ more := by
  obtain ⟨r, g₁, _, hx, hy⟩ := h.split
  obtain ⟨more, hmore⟩ := hy.grows
  exact ⟨r, g₁, more, hx, hmore.text⟩

/-- What a run adds has no directive if its document reads as nothing. -/
theorem Runs.calm {ofUnit : Prop} {opened next : List Char} (h : Runs options d column p g q)
    (hn : d.Neat ofUnit) (hd : d.read .signs p.scope opened = some next)
    (ht : q.writer.text.toList = p.writer.text.toList ++ text) : calm text = true := by
  have hink : (p.writer.text.toList ++ text).filter isInk =
      p.writer.text.toList.filter isInk ++ d.ink p.scope := by
    rw [← ht]
    exact h.ink_eq hn
  rw [List.filter_append, List.append_right_inj] at hink
  have hread := read_ink hd
  rw [← hink] at hread
  exact calm_of_ink (Option.ite_none_right_eq_some.1 hread).1

end Doc

/-! ### Runs of constructs -/

variable {d : Dialect} {column : Nat} {p q : Pass} {g : Forest Visited} {c : Context}

theorem Construct.atLineStart {k : Construct} (h : Runs options (k.doc l c) column p g q) :
    q.writer.atLineStart = true := by
  have hlast : ∀ {x : Doc}, Runs options (x ++ lineStart) column p g q →
      q.writer.atLineStart = true := by
    intro x h
    obtain ⟨r, _, _, -, ⟨⟩⟩ := h.split
    show r.writer.ensureLineStart.atLineStart = true
    unfold Writer.ensureLineStart
    split
    · assumption
    · rfl
  cases k <;> exact hlast h

/-- The steps of a guard: the line that starts it, the document, and the line that ends it. -/
theorem Dialect.guarded_runs {e : Expression} {x : Doc}
    (h : Runs options (d.language.guarded c (some e) x) column p g q)
    (hx : ∀ {p q g}, Runs options x column p g q → q.writer.atLineStart = true) :
    ∃ p₁ p₂ q₁ g₁ g₂,
      Runs options (c.expression e) column
        (p.mapWriter fun w => w.ensureLineStart.write "#if ") g₁ p₁ ∧
      p₂ = p₁.mapWriter (·.newline) ∧ Runs options x column p₂ g₂ q₁ ∧
      q = q₁.mapWriter fun w => (w.write "#endif").newline := by
  rw [d.guarded_some] at h
  obtain ⟨_, _, _, hstop, ⟨⟩⟩ := h.split
  obtain ⟨_, _, _, hclosed, hstop⟩ := hstop.split
  obtain ⟨_, _, _, ⟨⟩, ⟨⟩⟩ := hstop.split
  obtain ⟨q₁, _, _, hinner, ⟨⟩⟩ := hclosed.split
  obtain ⟨_, _, g₂, hopened, hbody⟩ := hinner.split
  obtain ⟨_, _, _, hstart, ⟨⟩⟩ := hopened.split
  obtain ⟨_, _, _, ⟨⟩, hhead⟩ := hstart.split
  obtain ⟨p₁, _, _, hwords, ⟨⟩⟩ := hhead.split
  obtain ⟨_, _, g₁, ⟨⟩, hcondition⟩ := hwords.split
  have hline : q₁.writer.ensureLineStart = q₁.writer := if_pos (hx hbody)
  refine ⟨p₁, _, q₁, g₁, g₂, hcondition, rfl, hbody, ?_⟩
  simp only [Pass.mapWriter, hline]
  rfl

theorem Writer.ensureLineStart_lead (w : Writer) : ∃ lead, (lead = [] ∨ lead = ['\n']) ∧
    w.ensureLineStart.text.toList = w.text.toList ++ lead ∧ w.ensureLineStart.atLineStart = true := by
  by_cases hw : w.atLineStart = true
  · refine ⟨[], .inl rfl, ?_⟩
    rw [Writer.ensureLineStart, if_pos hw, List.append_nil]
    exact ⟨rfl, hw⟩
  · refine ⟨['\n'], .inr rfl, ?_⟩
    rw [Writer.ensureLineStart, if_neg hw]
    exact ⟨(w.put_adds '\n').text, rfl⟩

theorem Indentation.margin_blank (i : Indentation) (level : Nat) :
    ∀ c ∈ i.margin level, c = ' ' ∨ c = '\t' := by
  intro c hc
  rw [List.eq_of_mem_replicate hc, Indentation.fill]
  split
  · exact .inr rfl
  · exact .inl rfl

theorem Writer.write_margin {w : Writer} {s : String} (hw : w.atLineStart = true)
    (hs : '\n' ∉ s.toList) (hne : s.toList ≠ []) :
    (w.write s).text.toList = w.text.toList ++ w.indentation.margin w.level ++ s.toList := by
  rw [Writer.write, Writer.writeChars_text hs hne, Writer.due_of_start hw]

/-- What the steps of a guard add to the text: the two lines have one margin. -/
theorem Doc.Runs.guard_texts {x y : Doc} {p₁ q₁ : Pass} {g₁ g₂ : Forest Visited}
    (hx : Runs options x column (p.mapWriter fun w => w.ensureLineStart.write "#if ") g₁ p₁)
    (hy : Runs options y column (p₁.mapWriter (·.newline)) g₂ q₁)
    (hq : q₁.writer.atLineStart = true) :
    ∃ lead margin condition, (lead = [] ∨ lead = ['\n']) ∧
      p.writer.ensureLineStart.text.toList = p.writer.text.toList ++ lead ∧
      (∀ c ∈ margin, c = ' ' ∨ c = '\t') ∧
      (p.writer.ensureLineStart.write "#if ").text.toList =
        p.writer.text.toList ++ lead ++ margin ++ "#if ".toList ∧
      p₁.writer.text.toList =
        p.writer.text.toList ++ lead ++ margin ++ "#if ".toList ++ condition ∧
      p₁.writer.newline.text.toList = p₁.writer.text.toList ++ ['\n'] ∧
      ((q₁.writer.write "#endif").newline).text.toList =
        q₁.writer.text.toList ++ margin ++ "#endif\n".toList := by
  obtain ⟨lead, hlead, hleadText, hbegun⟩ := p.writer.ensureLineStart_lead
  obtain ⟨w, hw⟩ : ∃ w, w = p.writer.ensureLineStart := ⟨_, rfl⟩
  rw [← hw] at hleadText hbegun ⊢
  obtain ⟨_, hsign⟩ := w.writeChars_grows "#if ".toList
  obtain ⟨condition, hcondition⟩ := hx.grows
  obtain ⟨_, htext⟩ := hy.grows
  have hcondition : (w.write "#if ").Grows condition p₁.writer := hw ▸ hcondition
  have hall := ((hsign.trans hcondition).trans (Writer.newline_grows _)).trans htext
  have hmargin : q₁.writer.indentation.margin q₁.writer.level = w.indentation.margin w.level := by
    rw [hall.indentation, hall.level]
  have hstart : (w.write "#if ").text.toList =
      p.writer.text.toList ++ lead ++ w.indentation.margin w.level ++ "#if ".toList := by
    rw [w.write_margin hbegun (by decide) (by decide), hleadText]
  have hstop : ((q₁.writer.write "#endif").newline).text.toList =
      q₁.writer.text.toList ++ w.indentation.margin w.level ++ "#endif\n".toList := by
    rw [(Writer.newline_grows _).text, q₁.writer.write_margin hq (by decide) (by decide), hmargin,
      List.append_assoc _ "#endif".toList]
    rfl
  exact ⟨lead, _, condition, hlead, hleadText, w.indentation.margin_blank w.level, hstart,
    hstart ▸ hcondition.text, (Writer.newline_grows _).text, hstop⟩

variable {scope : Option TypeScope} {depth : Nat} {k : Construct} {e : Expression} {ofUnit : Prop}

/-- A construct in its guard is laid out if the construct is. -/
theorem Dialect.guarded_laid (hk : k.condition = some e) (hreach : k.reach ≤ depth)
    (he : ((d.language.context setting depth).expression e).Closed .signs)
    (hlaid : ∀ {p q g}, Runs options (k.document d.language setting) column p g q →
      p.scope = scope → p.writer.Starts → ∃ text,
        q.writer.text.toList = p.writer.text.toList ++ text ∧
          Laid d.language options setting p.writer.text.toList text f)
    (h : Runs options (d.language.guarded (d.language.context setting depth) (some e)
      (k.document d.language setting)) column p g q)
    (hscope : p.scope = scope) (hp : p.writer.Starts) :
    ∃ text, q.writer.text.toList = p.writer.text.toList ++ text ∧
      Laid d.language options setting p.writer.text.toList text (.node k f .nil) := by
  have hdoc : (d.language.context setting depth).expression e = d.language.expressionDoc setting e :=
    d.composes.doc_context setting (.expression e) (Nat.le_trans (k.size_condition hk) hreach)
      (Nat.le_of_eq e.size_outline)
  rw [hdoc] at he
  -- The writer stands at the start of a line before the condition, and again before the end of
  -- the guard, so both of its lines begin with the margin of the level.
  obtain ⟨p₁, p₂, q₁, g₁, g₂, hcondition, rfl, hbody, rfl⟩ :=
    Dialect.guarded_runs h fun h => Construct.atLineStart h
  rw [hdoc] at hcondition
  have hends := Construct.atLineStart hbody
  obtain ⟨lead, margin, condition, hlead, hline, hmargin, hstart, hp₁, hhead, hstop⟩ :=
    hcondition.guard_texts hbody hends
  have hlineEnds : endsLine true (p.writer.text.toList ++ lead) = true := by
    obtain ⟨_, -, -, hbegun⟩ := p.writer.ensureLineStart_lead
    rw [← hline]
    exact hp.ensureLineStart hbegun
  have hcalm : calm condition = true := by
    have hneat : (d.language.expressionDoc setting e).Neat True :=
      d.composes.context_neat setting e.size (.expression e) True
    exact hcondition.calm hneat (he _ []) (hp₁.trans (congrArg (· ++ condition) hstart.symm))
  have hstarts := (Writer.Ended.newline p₁.writer).starts
  obtain ⟨text, htext, hinner⟩ := hlaid hbody (hcondition.surroundings.1.trans hscope) hstarts
  have hhead : p₁.writer.newline.text.toList = p.writer.text.toList ++
      (lead ++ margin ++ "#if ".toList ++ condition ++ ['\n']) := by
    rw [hhead, hp₁]
    simp only [List.append_assoc]
  have htextEnds : endsLine true text = true := by
    have hline : endsLine true (p₁.writer.newline.text.toList ++ text) = true :=
      htext ▸ hbody.starts hstarts hends
    rw [hhead, ← List.append_assoc, endsLine_append, endsLine_append] at hline
    exact hline
  have htext : q₁.writer.text.toList = p₁.writer.newline.text.toList ++ text := htext
  rw [hhead] at htext
  refine ⟨_, ?_, .guarded hk hlead hlineEnds hmargin ⟨_, _, _, _, hcondition, hstart, hp₁⟩ hcalm rfl
    ⟨_, _, _, _, hbody, hhead, htext⟩ htextEnds (hhead ▸ hinner)⟩
  show ((q₁.writer.write "#endif").newline).text.toList = _
  rw [hstop, htext]
  simp only [List.append_assoc]

theorem Bears.laid {x : Doc} {opened next : List Char}
    (h : Bears d setting .signs x scope opened next f) (hr : Runs options x column p g q)
    (hn : x.Neat ofUnit) (hscope : p.scope = scope) (hp : p.writer.Starts) :
    ∃ text, q.writer.text.toList = p.writer.text.toList ++ text ∧
      Laid d.language options setting p.writer.text.toList text f := by
  -- By induction on how the document bears its constructs: a run of it is made of runs of its parts.
  induction h generalizing column p q g with
  | code hx =>
    obtain ⟨text, hgrows⟩ := hr.grows
    exact ⟨text, hgrows.text, .code (hr.calm hn (hscope ▸ hx) hgrows.text)⟩
  | append _ _ ih ih' =>
    cases hr with
    | append hfirst hsecond =>
      obtain ⟨s, hs, hsLaid⟩ := ih hfirst hn.1 hscope hp
      obtain ⟨t, ht, htLaid⟩ :=
        ih' hsecond hn.2 (hfirst.surroundings.1.trans hscope) (hfirst.starts hp)
      rw [hs] at ht htLaid
      exact ⟨s ++ t, ht.trans (List.append_assoc ..), .append hsLaid htLaid⟩
  | nested _ ih =>
    cases hr with
    | nested hbody =>
      have hlaid := ih hbody hn hscope hp
      exact hlaid
  | node _ ih =>
    cases hr with
    | node _ _ hbody | unseen _ hbody =>
      have hlaid := ih hbody hn hscope hp
      exact hlaid
  | inside _ ih =>
    cases hr with
    | inside hbody =>
      have hlaid := ih hbody hn rfl hp
      exact hlaid
  | @construct k depth scope opened f hreach hcondition _ ih =>
    have hdoc := k.doc_context d.composes setting hreach
    rw [hdoc] at hr hn ih
    cases hk : k.condition with
    | none =>
      rw [hk] at hr hn
      obtain ⟨text, htext, hlaid⟩ := ih hr hn hscope hp
      exact ⟨text, htext, .bare hk ⟨_, _, _, _, hr, rfl, htext⟩ hlaid⟩
    | some e =>
      rw [hk] at hr hn
      have hbody : (k.document d.language setting).Neat ofUnit := hn.1.1.1.2
      exact Dialect.guarded_laid hk hreach (hcondition e hk)
        (fun h hscope hp => ih h hbody hscope hp) hr hscope hp

/-- The directives in a rendered text are those around the constructs that have a condition, if no
text in the tree has a number sign. Each is the first on its line, they are properly nested, and
there is one pair for each such construct. Between the two lines of a pair stands the text of its
construct, and no other. -/
theorem Dialect.guards_enclose (d : Dialect) {options : Options} {r : Request} {out : Rendering}
    (h : r.render d.language options = .ok out) (ht : ∀ s ∈ r.texts, '#' ∉ s.toList) :
    directives true out.text.toList = (r.constructs d).guards.map (·, true) ∧
      Directive.level 0 (r.constructs d).guards = some 0 ∧
      (∀ x, (r.constructs d).guards.count x =
        (r.constructs d).labels.countP fun k => k.condition.isSome) ∧
      Laid d.language options (r.setting options) [] out.text.toList (r.constructs d) := by
  have htexts : ∀ s ∈ r.texts, Reading.signs.Overlooks s := fun s hs c hc =>
    bne_iff_ne.2 fun hsign => ht s hs (hsign ▸ hc)
  obtain ⟨_, q, hruns, rfl⟩ := runs_of_render h
  obtain ⟨text, htext, hlaid⟩ := (d.document_bears options htexts).laid hruns
    (d.composes.document_neat options r) rfl fun _ => rfl
  have htext : q.writer.text.toList = text := htext
  rw [← htext] at hlaid
  have hlaid : Laid d.language options (r.setting options) [] q.writer.text.toList (r.constructs d) :=
    hlaid
  have hdirectives := hlaid.directives_eq []
  have hlevel := (r.constructs d).level_guards 0 []
  rw [List.append_nil] at hdirectives hlevel
  rw [directives, List.append_nil] at hdirectives
  exact ⟨hdirectives, hlevel, (r.constructs d).count_guards, hlaid⟩

/-- A unit that imports another under a condition, and a class with a method, each under one. -/
def CodeUnit.tracer : CodeUnit :=
  let condition : Option Expression := some ⟨1, .raw "DEBUG"⟩
  let run : Member := ⟨1, "run", ⟨.everyone, condition, [], none⟩, .none, false,
    .method ⟨[], [], none, [], false, false, false⟩⟩
  let tracer : TypeDefinition := ⟨1, "Tracer", ⟨.everyone, condition, [], none⟩,
    .classType ⟨[], [], [], [run], false, false, false, false⟩⟩
  ⟨1, none, none, none, [⟨"Logging", false, condition⟩], [], [tracer]⟩

example : (CodeUnit.tracer.constructs .csharp).guards =
    [.start, .stop, .start, .start, .stop, .stop] := rfl

theorem CodeUnit.tracer_guards_enclose : ∃ out,
    (Request.unit tracer false).render .csharp .initial = .ok out ∧
      (∀ s ∈ (Request.unit tracer false).texts, '#' ∉ s.toList) ∧
      directives true out.text.toList = (tracer.constructs .csharp).guards.map (·, true) ∧
      Laid .csharp .initial ((Request.unit tracer false).setting .initial) [] out.text.toList
        (tracer.constructs .csharp) := by
  obtain ⟨out, hout⟩ : ∃ out, (Request.unit tracer false).render .csharp .initial = .ok out :=
    Doc.exists_render_iff.2 rfl
  have htexts : ∀ s ∈ (Request.unit tracer false).texts, '#' ∉ s.toList := by decide
  obtain ⟨hdirectives, -, -, hlaid⟩ := Dialect.guards_enclose .csharp hout htexts
  exact ⟨out, hout, htexts, hdirectives, hlaid⟩

end SourcePrinter
