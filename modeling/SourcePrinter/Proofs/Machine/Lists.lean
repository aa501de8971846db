import SourcePrinter.Proofs.Machine.Range
import SourcePrinter.Proofs.Machine.Runs

/-! Lists that wrap, on a machine. A line of texts and separators is written with some separators
broken, and every break ends in the same padding, which leads to the column at which the outermost
list began, as the machine counts it. In range the padding comes to its end; where tabs are too wide
its loops do not. -/

namespace SourcePrinter

open Machine (words)

/-! ### Padding -/

namespace Writer

variable {m : Machine} {w v w' v' : Writer} {c : Char} {column : Nat}

/-- The virtual column after one more character of the line. -/
theorem fit_of_put? (hc : c ≠ '\n') (h : w.put? m c = some v) :
    m.fit (w.position.virtualColumn + if c = '\t' then w.indentation.width else 1) =
      some v.position.virtualColumn := by
  obtain ⟨p, hp, -, rfl⟩ := put?_eq h
  rw [Position.step?, if_neg hc] at hp
  obtain ⟨column, -, hrest⟩ := Option.bind_eq_some_iff.1 hp
  obtain ⟨virtualColumn, hfit, hp⟩ := Option.bind_eq_some_iff.1 hrest
  cases hp
  exact hfit

theorem virtualColumn_newline? (h : w.newline? m = some v) : v.position.virtualColumn = 0 := by
  obtain ⟨u, hput, hv⟩ := Option.bind_eq_some_iff.1 h
  obtain ⟨p, hp, -, rfl⟩ := put?_eq hput
  cases hv
  rw [Position.step?, if_pos rfl] at hp
  obtain ⟨line, -, hp⟩ := Option.bind_eq_some_iff.1 hp
  cases hp
  rfl

/-- Writers at one column go through a loop of the line in step. -/
theorem putWhile?_unique {test : Writer → Option Bool} (hc : c ≠ '\n')
    (htest : ∀ u v : Writer, u.indentation = v.indentation →
      u.position.virtualColumn = v.position.virtualColumn → test u = test v)
    (hi : w.indentation = v.indentation)
    (hcolumn : w.position.virtualColumn = v.position.virtualColumn)
    (h : w.putWhile? m c test = some w') (h' : v.putWhile? m c test = some v') :
    ∃ n, w'.text.toList = w.text.toList ++ List.replicate n c ∧
      v'.text.toList = v.text.toList ++ List.replicate n c ∧ w'.indentation = v'.indentation ∧
      w'.position.virtualColumn = v'.position.virtualColumn := by
  induction w using putWhile?.induct m c test generalizing v with
  | case1 w htests =>
    rw [putWhile?_of_none htests] at h
    cases h
  | case2 w htests =>
    rw [putWhile?_of_false htests] at h
    rw [putWhile?_of_false ((htest w v hi hcolumn).symm.trans htests)] at h'
    cases h
    cases h'
    exact ⟨0, (List.append_nil _).symm, (List.append_nil _).symm, hi, hcolumn⟩
  | case3 w htests hput =>
    rw [putWhile?_of_true htests, hput] at h
    cases h
  | case4 w htests u hput ih =>
    rw [putWhile?_of_true htests, hput] at h
    rw [putWhile?_of_true ((htest w v hi hcolumn).symm.trans htests)] at h'
    obtain ⟨u', hput', hmore⟩ := Option.bind_eq_some_iff.1 h'
    have hprints := put?_prints hput
    have hprints' := put?_prints hput'
    have hfit := fit_of_put? hc hput
    rw [hi, hcolumn, fit_of_put? hc hput'] at hfit
    obtain ⟨n, hw, hv, hend⟩ := ih
      (hprints.indentation.trans (hi.trans hprints'.indentation.symm))
      (Option.some.inj hfit).symm h hmore
    refine ⟨n + 1, ?_, ?_, hend⟩
    · rw [hw, hprints.text, List.append_assoc]
      rfl
    · rw [hv, hprints'.text, List.append_assoc]
      rfl

/-- At the start of a line all padding to one column is the same. -/
theorem padTo?_unique (hi : w.indentation = v.indentation)
    (hcolumn : w.position.virtualColumn = v.position.virtualColumn)
    (h : w.padTo? m column = some w') (h' : v.padTo? m column = some v') :
    ∃ pad, w'.text.toList = w.text.toList ++ pad ∧ v'.text.toList = v.text.toList ++ pad := by
  obtain ⟨tabbed, spaced, htabs, hspaces, rfl⟩ := padTo?_eq h
  obtain ⟨tabbed', spaced', htabs', hspaces', rfl⟩ := padTo?_eq h'
  obtain ⟨tabs, hw, hv, hi, hcolumn⟩ : ∃ n,
      tabbed.text.toList = w.text.toList ++ List.replicate n '\t' ∧
      tabbed'.text.toList = v.text.toList ++ List.replicate n '\t' ∧
      tabbed.indentation = tabbed'.indentation ∧
      tabbed.position.virtualColumn = tabbed'.position.virtualColumn := by
    unfold padTabs? at htabs htabs'
    rw [← hi] at htabs'
    split at htabs
    · next hcondition =>
      rw [if_pos hcondition] at htabs'
      refine putWhile?_unique (by decide) (fun u u' hu hu' => ?_) hi hcolumn htabs htabs'
      rw [tabFits?, tabFits?, hu, hu']
    · next hcondition =>
      rw [if_neg hcondition] at htabs'
      cases htabs
      cases htabs'
      exact ⟨0, (List.append_nil _).symm, (List.append_nil _).symm, hi, hcolumn⟩
  obtain ⟨spaces, hw', hv', -, -⟩ := putWhile?_unique (by decide)
    (fun u u' _ hu => by rw [hu]) hi hcolumn hspaces hspaces'
  refine ⟨List.replicate tabs '\t' ++ List.replicate spaces ' ', ?_, ?_⟩
  · rw [← List.append_assoc, ← hw]
    exact hw'
  · rw [← List.append_assoc, ← hv]
    exact hv'

/-- A loop none of whose rounds leads past a column. -/
theorem putWhile?_column {test : Writer → Option Bool} {start : Nat} (hc : c ≠ '\n')
    (hround : ∀ u u' : Writer, test u = some true → u.put? m c = some u' →
      u'.position.virtualColumn ≤ column)
    (hstart : w.position.virtualColumn = m.cut start) (hle : w.position.virtualColumn ≤ column)
    (h : w.putWhile? m c test = some v) :
    test v = some false ∧ v.position.virtualColumn ≤ column ∧
      ∃ n, w.Prints m (List.replicate n c) v ∧ v.position.virtualColumn =
        m.cut (start + n * if c = '\t' then w.indentation.width else 1) := by
  have hfirst : w.position.virtualColumn ≤ column ∧ ∃ n, w.Prints m (List.replicate n c) w ∧
      w.position.virtualColumn =
        m.cut (start + n * if c = '\t' then w.indentation.width else 1) := by
    refine ⟨hle, 0, .refl m w, ?_⟩
    rw [hstart, Nat.zero_mul, Nat.add_zero]
  refine (putWhile?_induct (motive := fun u => u.position.virtualColumn ≤ column ∧
    ∃ n, w.Prints m (List.replicate n c) u ∧ u.position.virtualColumn =
      m.cut (start + n * if c = '\t' then w.indentation.width else 1)) h hfirst ?_).symm
  rintro u u' ⟨-, n, hprints, hcut⟩ htest hput
  refine ⟨hround u u' htest hput, n + 1, ?_, ?_⟩
  · rw [List.replicate_succ']
    exact hprints.trans (put?_prints hput)
  · rw [(Machine.eq_cut_of_fit (fit_of_put? hc hput)).1, hcut, Machine.cut_cut_add,
      hprints.indentation, Nat.add_assoc, Nat.succ_mul]

/-- A tab is put only where it fits. -/
theorem column_of_tabFits? (htest : w.tabFits? m column = some true)
    (h : w.put? m '\t' = some v) : v.position.virtualColumn ≤ column := by
  obtain ⟨stop, hfit, hstop⟩ := Option.bind_eq_some_iff.1 htest
  have hput := fit_of_put? (by decide) h
  rw [if_pos rfl, hfit] at hput
  cases hput
  exact of_decide_eq_true (Option.some.inj hstop)

/-- Padding at the start of a line leads to the column, as the machine counts it. -/
theorem padTo?_column (hw : w.position.virtualColumn = 0) (h : w.padTo? m column = some v) :
    ∃ pad, v.text.toList = w.text.toList ++ pad ∧ (∀ c ∈ pad, c = '\t' ∨ c = ' ') ∧
      m.cut (Position.width w.indentation.width pad) = column := by
  obtain ⟨tabbed, spaced, htabs, hspaces, rfl⟩ := padTo?_eq h
  have hstart : w.position.virtualColumn = m.cut 0 := by
    rw [hw, Machine.cut_of_lt (by decide)]
  have hzero : w.position.virtualColumn ≤ column := by omega
  obtain ⟨hle, tabs, hfirst, hcut⟩ : tabbed.position.virtualColumn ≤ column ∧
      ∃ n, w.Prints m (List.replicate n '\t') tabbed ∧
        tabbed.position.virtualColumn = m.cut (n * w.indentation.width) := by
    unfold padTabs? at htabs
    split at htabs
    · obtain ⟨-, hle, n, hprints, hcut⟩ :=
        putWhile?_column (by decide) (fun _ _ => column_of_tabFits?) hstart hzero htabs
      rw [if_pos rfl, Nat.zero_add] at hcut
      exact ⟨hle, n, hprints, hcut⟩
    · cases htabs
      refine ⟨hzero, 0, .refl m w, ?_⟩
      rw [hstart, Nat.zero_mul]
  have hround : ∀ u u' : Writer, some (decide (u.position.virtualColumn < column)) = some true →
      u.put? m ' ' = some u' → u'.position.virtualColumn ≤ column := by
    intro u u' htest hput
    have hlt : u.position.virtualColumn < column := of_decide_eq_true (Option.some.inj htest)
    rw [(Machine.eq_cut_of_fit (fit_of_put? (by decide) hput)).1, if_neg (by decide)]
    exact Nat.le_trans (m.cut_le _) hlt
  obtain ⟨hend, hle', spaces, hsecond, hcut'⟩ :=
    putWhile?_column (by decide) hround hcut hle hspaces
  have hcolumn : spaced.position.virtualColumn = column := by
    have := of_decide_eq_false (Option.some.inj hend)
    omega
  refine ⟨_, (hfirst.trans hsecond).text, blank_tabs_spaces tabs spaces, ?_⟩
  rw [Position.width_append, Position.width_replicate, Position.width_replicate, if_pos rfl]
  exact hcut'.symm.trans hcolumn

/-- Lines that are padded to a column begin with one text, and if there are any a fact holds. -/
def Padding (m : Machine) (i : Indentation) (column : Nat) (pad : List Char) (fact : Prop) : Prop :=
  ∀ u v : Writer, u.indentation = i → u.position.virtualColumn = 0 →
    u.padTo? m column = some v → v.text.toList = u.text.toList ++ pad ∧ fact

theorem Padding.imp {i : Indentation} {pad : List Char} {fact fact' : Prop}
    (h : Padding m i column pad fact) (hfact : fact → fact') : Padding m i column pad fact' :=
  fun u v hi hu hv => ⟨(h u v hi hu hv).1, hfact (h u v hi hu hv).2⟩

/-- Padding leads to its column, as the machine counts it. -/
theorem exists_padding (m : Machine) (i : Indentation) (column : Nat) :
    ∃ pad, (∀ c ∈ pad, c = '\t' ∨ c = ' ') ∧
      Padding m i column pad (m.cut (Position.width i.width pad) = column) := by
  by_cases hend : ∃ u v : Writer, u.indentation = i ∧ u.position.virtualColumn = 0 ∧
      u.padTo? m column = some v
  · obtain ⟨w, w', rfl, hw, hpad⟩ := hend
    obtain ⟨pad, htext, hblank, hcolumn⟩ := padTo?_column hw hpad
    refine ⟨pad, hblank, fun u v hi hu h => ⟨?_, hcolumn⟩⟩
    obtain ⟨pad', hw', hv⟩ := padTo?_unique hi.symm (hw.trans hu.symm) hpad h
    rw [hv, List.append_cancel_left (htext.symm.trans hw')]
  · exact ⟨[], nofun, fun u v hi hu h => absurd ⟨u, v, hi, hu, h⟩ hend⟩

end Writer

/-! ### Texts with broken separators -/

namespace Wraps

variable {separator separator' : String → Prop} {pad a b : List Char}

theorem mono (h : Wraps separator pad a b) (hs : ∀ s, separator s → separator' s) :
    Wraps separator' pad a b := by
  induction h with
  | nil => exact .nil
  | char hc _ ih => exact .char hc ih
  | broken hsep _ ih => exact .broken (hs _ hsep) ih

/-- Where no separator is broken the text is as it was. -/
theorem eq_of_unbroken (h : Wraps (fun _ => False) pad a b) : a = b := by
  induction h with
  | nil => rfl
  | char _ _ ih => rw [ih]
  | broken hs => exact hs.elim

/-- A line feed is that of a break. -/
theorem exists_broken (h : Wraps separator pad a b) (ha : '\n' ∈ a) : ∃ s, separator s := by
  induction h with
  | nil => exact absurd ha List.not_mem_nil
  | char hc _ ih => exact ih ((List.mem_cons.1 ha).resolve_left (Ne.symm hc))
  | @broken s _ _ hs => exact ⟨s, hs⟩

end Wraps

namespace Writer

variable {m : Machine} {w v u : Writer} {text : List Char}

/-- What a text in one line adds on a machine that does not abort it. -/
def inLine? (m : Machine) (w : Writer) (text : List Char) : List Char :=
  if text = [] then [] else (w.due? m).getD [] ++ text

theorem lineFeed_not_mem_inLine? (h : '\n' ∉ text) : '\n' ∉ w.inLine? m text := by
  unfold inLine?
  split
  · exact List.not_mem_nil
  · intro hmem
    rcases List.mem_append.1 hmem with hdue | htext
    · cases hdue? : w.due? m with
      | none => simp [hdue?] at hdue
      | some due =>
        rw [hdue?] at hdue
        exact lineFeed_not_mem_of_blank (blank_of_due? hdue?) hdue
    · exact h htext

/-- One writer is another with a line of text, in which separators are broken. -/
structure Fills (m : Machine) (broken : String → Prop) (pad : List Char) (w : Writer)
    (line : List Char) (v : Writer) : Prop where
  text : ∃ wrapped, v.text.toList = w.text.toList ++ wrapped ∧
    Wraps broken pad wrapped (w.inLine? m line)
  indentation : v.indentation = w.indentation
  level : v.level = w.level
  alignment : v.alignment = w.alignment
  atLineStart : v.atLineStart = (w.atLineStart && line.isEmpty)

namespace Fills

variable {broken : String → Prop} {pad line line' : List Char}

theorem refl (w : Writer) : w.Fills m broken pad [] w :=
  ⟨⟨[], (List.append_nil _).symm, .nil⟩, rfl, rfl, rfl, (Bool.and_true _).symm⟩

/-- Behind the first line no indentation is due. -/
theorem trans (h : w.Fills m broken pad line v) (h' : v.Fills m broken pad line' u) :
    w.Fills m broken pad (line ++ line') u where
  text := by
    obtain ⟨a, ha, hwraps⟩ := h.text
    obtain ⟨b, hb, hwraps'⟩ := h'.text
    have hline : w.inLine? m (line ++ line') = w.inLine? m line ++ v.inLine? m line' := by
      by_cases hnil : line = []
      · subst hnil
        have hdue : v.due? m = w.due? m := by
          rw [due?, due?, h.indentation, h.level, h.atLineStart]
          simp
        rw [inLine?, inLine?, inLine?, hdue]
        simp
      · have hbegun : v.atLineStart = false := by
          rw [h.atLineStart]
          simp [hnil]
        rw [inLine?, inLine?, inLine?, due?_of_begun hbegun]
        by_cases hnil' : line' = []
        · simp [hnil, hnil']
        · simp [hnil, hnil']
    refine ⟨a ++ b, ?_, hline ▸ hwraps.append hwraps'⟩
    rw [hb, ha, List.append_assoc]
  indentation := h'.indentation.trans h.indentation
  level := h'.level.trans h.level
  alignment := h'.alignment.trans h.alignment
  atLineStart := by
    rw [h'.atLineStart, h.atLineStart]
    cases line <;> simp

/-- A text in one line is not broken. -/
theorem of_writeChars? (ht : '\n' ∉ text) (h : w.writeChars? m text = some v) :
    w.Fills m broken pad text v := by
  by_cases hnil : text = []
  · subst hnil
    cases h
    exact refl w
  · obtain ⟨due, hdue, hprints, hbegun⟩ := writeChars?_prints ht hnil h
    have hline : w.inLine? m text = due ++ text := by
      rw [inLine?, if_neg hnil, hdue]
      rfl
    refine ⟨⟨due ++ text, hprints.text, ?_⟩, hprints.indentation, hprints.level,
      hprints.alignment, ?_⟩
    · rw [← hline]
      exact .of_line (lineFeed_not_mem_inLine? ht)
    · simp [hbegun, hnil]

end Fills

/-- A separator is written as it is, or broken and followed by the padding of the list. -/
theorem writeSeparator?_fills {broken : String → Prop} {pad : List Char} {s : String}
    {threshold column : Nat} {answer : Bool} (hs : IsSeparator s)
    (hpad : Padding m w.indentation column pad (threshold < words - 1 → broken s))
    (h : w.writeSeparator? m s threshold column = some (v, answer)) :
    w.Fills m broken pad s.toList v := by
  obtain ⟨stop, hfit, ⟨-, hwrite, -⟩ | ⟨hstop, -, u, u', htrim, hline, hpads⟩⟩ :=
    writeSeparator?_eq h
  · exact .of_writeChars? hs.line hwrite
  · obtain ⟨due, hdue, hprints, -⟩ :=
      writeChars?_prints hs.lineFeed_not_mem_trimEnd hs.trimEnd_ne_nil htrim
    obtain ⟨hprints', -⟩ := newline?_prints hline
    obtain ⟨added, hprints'', -, hbegun⟩ := padTo?_prints hpads
    obtain ⟨htext, hbroken⟩ := hpad u' v (hprints'.indentation.trans hprints.indentation)
      (virtualColumn_newline? hline) hpads
    have hlt : threshold < words - 1 := by
      have := (Machine.eq_cut_of_fit hfit).2
      omega
    have hne : s.toList ≠ [] := by
      obtain ⟨c, hc, -⟩ := hs.visible
      exact List.ne_nil_of_mem hc
    have hall := (hprints.trans hprints').trans hprints''
    refine ⟨⟨due ++ (trimEnd s.toList ++ '\n' :: pad), ?_, ?_⟩, hall.indentation, hall.level,
      hall.alignment, ?_⟩
    · rw [htext, hprints'.text, hprints.text]
      simp
    · rw [inLine?, if_neg hne, hdue, Option.getD_some]
      have hbreak : Wraps broken pad _ (s.toList ++ []) := .broken (hbroken hlt) .nil
      rw [List.append_nil, List.append_nil] at hbreak
      exact .append (.of_line (lineFeed_not_mem_of_blank (blank_of_due? hdue))) hbreak
    · simp [hbegun, hne]

end Writer

/-! ### Documents in one line -/

namespace Doc

variable {m : Machine} {options : Options} {d : Doc} {column : Nat} {p : Pass} {o : Outcome}

/-- The texts and separators of a document up to what ends its rendering. -/
def lineText (strict : Bool) : Doc → Option TypeScope → List Char
  | empty, _ | newline, _ | lineStart, _ | typeGap, _ | malformed _, _ => []
  | text s, _ | separator s, _ => s.toList
  | append first second, scope =>
    first.lineText strict scope ++
      if (first.events scope).failure strict = none then second.lineText strict scope else []
  | nested body, scope | aligned body, scope | node _ body, scope | synthetic _ body, scope =>
    body.lineText strict scope
  | inside inner body, _ => body.lineText strict (some inner)
  | perScope body, scope => (body scope).lineText strict scope
  | unsupported _ remark, scope => if strict then [] else remark.lineText strict scope

theorem lineFeed_not_mem_lineText {scope : Option TypeScope} (hflat : d.Flat scope)
    (strict : Bool) : '\n' ∉ d.lineText strict scope := by
  induction d generalizing scope with
  | empty | malformed => exact List.not_mem_nil
  | text s => exact hflat _ (List.mem_singleton_self _)
  | separator s => exact (hflat _ (List.mem_singleton_self _)).line
  | newline | lineStart | typeGap => exact (hflat _ (List.mem_singleton_self _)).elim
  | nested body => exact (hflat .indent List.mem_cons_self).elim
  | append first second ih ih' =>
    obtain ⟨hfirst, hsecond⟩ := List.forall_mem_append.1 hflat
    rw [lineText]
    split
    · exact fun hmem => (List.mem_append.1 hmem).elim (ih hfirst) (ih' hsecond)
    · rw [List.append_nil]
      exact ih hfirst
  | aligned body ih | node key body ih | synthetic key body ih | inside scope body ih =>
    exact ih hflat
  | perScope body ih => exact ih _ hflat
  | unsupported gap remark ih =>
    rw [lineText]
    split
    · exact List.not_mem_nil
    · exact ih fun move h => hflat move (.tail _ h)

/-- Inside a list in progress a flat document writes its line, with separators broken where they
would end past the threshold. -/
theorem run?_fills {broken : String → Prop} {pad : List Char} (hflat : d.Flat p.scope)
    (hp : p.writer.alignment = some column)
    (hpad : Writer.Padding m p.writer.indentation column pad
      (∀ s, .separator s ∈ d.moves p.scope → options.wrapColumn < words - 1 → broken s))
    (h : d.run? m options column p = some o) :
    p.writer.Fills m broken pad (d.lineText options.strict p.scope) o.pass.writer := by
  -- On the document. No part of a flat document ends the list, so its column holds throughout.
  induction d generalizing p o with
  | empty | malformed =>
    cases h
    exact .refl _
  | text s =>
    obtain ⟨w, hw, rfl⟩ := run?_step h
    exact .of_writeChars? (hflat _ (List.mem_singleton_self _)) hw
  | separator s =>
    obtain ⟨w, hw, rfl⟩ := run?_step h
    obtain ⟨⟨w, answer⟩, hseparator, rfl⟩ := Option.map_eq_some_iff.1 hw
    have hs : IsSeparator s := hflat _ (List.mem_singleton_self _)
    exact Writer.writeSeparator?_fills hs
      (hpad.imp fun hbroken => hbroken s (List.mem_singleton_self _)) hseparator
  | newline | lineStart | typeGap => exact (hflat _ (List.mem_singleton_self _)).elim
  | nested body => exact (hflat .indent List.mem_cons_self).elim
  | append first second ih ih' =>
    obtain ⟨hflat₁, hflat₂⟩ := List.forall_mem_append.1 hflat
    obtain ⟨o₁, hfirst, hsecond⟩ := run?_append h
    obtain ⟨hscopes, hfailure⟩ := run?_ends hfirst
    have hscope : o₁.pass.scope = p.scope := by rw [Pass.scope, hscopes, Pass.scope]
    have hfills := ih hflat₁ hp
      (hpad.imp fun hbroken s hs => hbroken s (List.mem_append_left _ hs)) hfirst
    rw [lineText, ← hfailure]
    rcases hsecond with ⟨hdone, hsecond⟩ | ⟨hfailed, rfl⟩
    · have hmore := ih' (hscope ▸ hflat₂) (hfills.alignment.trans hp)
        (hfills.indentation ▸ hpad.imp fun hbroken s hs =>
          hbroken s (List.mem_append_right _ (hscope ▸ hs))) hsecond
      rw [hscope] at hmore
      rw [if_pos hdone]
      exact hfills.trans hmore
    · rw [if_neg hfailed, List.append_nil]
      exact hfills
  | aligned body ih =>
    -- The list joins the one in progress, and leaves its end to it.
    obtain ⟨w, start, owned, o₁, hbegin, hbody, rfl⟩ := run?_aligned h
    rw [Writer.beginList?, hp] at hbegin
    cases hbegin
    have hwriter : (o₁.onDone (·.mapWriter (·.endList false))).pass.writer = o₁.pass.writer :=
      o₁.read_onDone (·.writer) fun _ => rfl
    rw [hwriter]
    exact ih hflat hp hpad hbody
  | node key body ih =>
    obtain ⟨pending, o₁, hbody, rfl⟩ := run?_node h
    have hfills := ih (p := (p.enter key).2) hflat hp hpad hbody
    exact hfills
  | synthetic key body ih =>
    obtain ⟨o₁, hbody, rfl⟩ := run?_synthetic h
    have hscope : (p.markSynthetic key).scope = p.scope := p.scope_markSynthetic key
    have hwriter : (p.markSynthetic key).writer = p.writer := p.writer_markSynthetic key
    have hfills := ih (hscope ▸ hflat) (hwriter ▸ hp) (hscope ▸ hwriter ▸ hpad) hbody
    rw [hscope, hwriter] at hfills
    show p.writer.Fills m broken pad _ (o₁.pass.unmarkSynthetic key _).writer
    rw [Pass.writer_unmarkSynthetic]
    exact hfills
  | inside scope body ih =>
    obtain ⟨o₁, hbody, rfl⟩ := run?_inside h
    have hfills := ih (p := p.pushScope scope) hflat hp hpad hbody
    exact hfills
  | perScope body ih => exact ih p.scope hflat hp hpad h
  | unsupported gap remark ih =>
    rw [lineText]
    rcases run?_unsupported h with ⟨hstrict, rfl⟩ | ⟨hstrict, hremark⟩
    · rw [if_pos hstrict]
      exact .refl _
    · rw [hstrict, if_neg Bool.false_ne_true, ← hstrict]
      exact ih (fun move h => hflat move (.tail _ h)) hp
        (hpad.imp fun hbroken s hs => hbroken s (.tail _ hs)) hremark

/-- An outermost list writes its line, with separators broken, and ends itself. -/
theorem run?_outermost {broken : String → Prop} {pad : List Char} {next : Position}
    (hflat : d.Flat p.scope) (hp : p.writer.alignment = none)
    (hnext : p.writer.nextPosition? m = some next)
    (hpad : Writer.Padding m p.writer.indentation next.virtualColumn pad
      (∀ s, .separator s ∈ d.moves p.scope → options.wrapColumn < words - 1 → broken s))
    (h : (aligned d).run? m options column p = some o) :
    (∃ wrapped, o.pass.writer.text.toList = p.writer.text.toList ++ wrapped ∧
      Wraps broken pad wrapped (p.writer.inLine? m (d.lineText options.strict p.scope))) ∧
    (o.failure = none → o.pass.writer.alignment = none) := by
  obtain ⟨w, start, owned, o₁, hbegin, hbody, rfl⟩ := run?_aligned h
  rw [Writer.beginList?, hp] at hbegin
  simp only [hnext, Option.bind_eq_bind, Option.bind_some, Option.pure_def, Option.some.injEq,
    Prod.mk.injEq] at hbegin
  obtain ⟨rfl, rfl, rfl⟩ := hbegin
  have hfills := run?_fills
    (p := { p with writer := { p.writer with alignment := some next.virtualColumn } })
    hflat rfl hpad hbody
  refine ⟨?_, fun hdone => ?_⟩
  · have htext : (o₁.onDone (·.mapWriter (·.endList true))).pass.writer.text =
        o₁.pass.writer.text := o₁.read_onDone (·.writer.text) fun _ => rfl
    rw [htext]
    exact hfills.text
  · rw [Outcome.failure_onDone] at hdone
    rw [Outcome.onDone, hdone]
    rfl

/-- A list that is not aborted has begun at a column. -/
theorem nextPosition?_of_list (hp : p.writer.alignment = none)
    (h : (aligned d).run? m options column p = some o) :
    ∃ next, p.writer.nextPosition? m = some next := by
  obtain ⟨w, start, owned, o₁, hbegin, -, -⟩ := run?_aligned h
  rw [Writer.beginList?, hp] at hbegin
  obtain ⟨next, hnext, -⟩ := Option.bind_eq_some_iff.1 hbegin
  exact ⟨next, hnext⟩

/-- A list that is begun on a machine when none is in progress, in any state of the writer and under
any options, and whose items keep to the line, among them further lists. In range it comes to its
end. Where it does, it adds what it adds under a threshold that no column passes, which is one line,
with some separators broken. After every line feed there is padding to the column at which the list
began, the indentation that was due counted in; and no list is in progress after one that does not
fail. In range padding is what its loops come to. -/
theorem separated_wraps_on (m : Machine) (options : Options) (column : Nat) {p : Pass} {s : String}
    {items : List Doc} (hs : IsSeparator s) (hitems : ∀ item ∈ items, item.Flat p.scope)
    (hp : p.writer.alignment = none) :
    let list := separated s items
    (p.writer.InRange (Position.bytes (list.run options column p).pass.writer.text.toList)
        (p.writer.level + list.slack p.scope) →
      list.run? m options column p = some (list.run options column p)) ∧
    (∀ o, list.run? m options column p = some o →
      ∃ next, p.writer.nextPosition? m = some next ∧
        (∃ wrapped plain : List Char,
          o.pass.writer.text.toList = p.writer.text.toList ++ wrapped ∧
          (∀ k wide, words - 1 ≤ k →
            list.run? m { options with wrapColumn := k } column p = some wide →
            wide.failure = o.failure ∧
              wide.pass.writer.text.toList = p.writer.text.toList ++ plain) ∧
          '\n' ∉ plain ∧
          ∃ pad, Wraps (fun s => .separator s ∈ list.moves p.scope) pad wrapped plain ∧
            ∀ before after, wrapped = before ++ '\n' :: after → ∃ rest, after = pad ++ rest ∧
              (∀ c ∈ pad, c = '\t' ∨ c = ' ') ∧
              ((p.writer.position.scan p.writer.indentation.width
                (before ++ '\n' :: pad)).on m).virtualColumn = next.virtualColumn) ∧
        (o.failure = none → o.pass.writer.alignment = none)) ∧
    ∀ (w : Writer) (c : Nat), w.InRange (Position.bytes (w.padTo c).text.toList) w.level →
      w.padTo? m c = some (w.padTo c) ∧ Writer.Pads c w (w.padTo c) := by
  intro list
  refine ⟨fun hrange => run?_inRange hrange (Nat.le_refl _) (Nat.le_refl _), fun o h => ?_,
    fun w c hrange => ⟨Writer.padTo?_inRange hrange (Nat.le_refl _), w.pads_padTo c⟩⟩
  obtain ⟨d, hd⟩ : ∃ d, list = aligned d := ⟨_, rfl⟩
  have hlist : ∀ move ∈ list.moves p.scope, move.IsFlat := flat_separated hs hitems
  have hmoves : list.moves p.scope = d.moves p.scope := by rw [hd, moves]
  have hflat : d.Flat p.scope := fun move h => hlist move (by rwa [hmoves])
  rw [hmoves]
  rw [hd] at h ⊢
  obtain ⟨next, hnext⟩ := nextPosition?_of_list hp h
  obtain ⟨pad, hblank, hpad⟩ :=
    Writer.exists_padding m p.writer.indentation next.virtualColumn
  have hpadLine : '\n' ∉ pad := lineFeed_not_mem_of_blank hblank
  -- A separator is broken only if padding to the column comes to its end.
  obtain ⟨⟨wrapped, hwrapped, hwraps⟩, hend⟩ := run?_outermost hflat hp hnext
    (hpad.imp fun hcolumn s hs _ => And.intro hs hcolumn) h
  have hline : '\n' ∉ p.writer.inLine? m (d.lineText options.strict p.scope) :=
    Writer.lineFeed_not_mem_inLine? (lineFeed_not_mem_lineText hflat _)
  refine ⟨next, hnext, ⟨wrapped, _, hwrapped, fun k wide hk hwide => ?_, hline, pad,
    hwraps.mono fun s hs => hs.1, fun before after hbreak => ?_⟩, hend⟩
  · obtain ⟨⟨plain, hplain, hunbroken⟩, -⟩ := run?_outermost hflat hp hnext
      (hpad.imp fun _ s _ hlt => Nat.not_lt.2 hk hlt) hwide
    rw [hunbroken.eq_of_unbroken] at hplain
    exact ⟨by rw [(run?_ends hwide).2, (run?_ends h).2], hplain⟩
  · obtain ⟨s, -, hcolumn⟩ := hwraps.exists_broken (hbreak ▸ by simp)
    obtain ⟨rest, hrest⟩ := hwraps.padded (fun s hs => hflat (.separator s) hs.1) hpadLine hbreak
    refine ⟨rest, hrest.symm, hblank, ?_⟩
    rw [Position.scan_append, Position.scan_cons, Position.on,
      Position.virtualColumn_scan _ _ hpadLine]
    show m.cut (0 + _) = _
    rw [Nat.zero_add]
    exact hcolumn

theorem roster_wraps_on :
    IsSeparator ", " ∧ (∀ item ∈ roster, item.Flat none) ∧ called.writer.alignment = none ∧
      ∃ o, (separated ", " roster).run? .wrapping { Options.initial with wrapColumn := 20 } 0
          called = some o ∧
        o.pass.writer.text = "\tcall(alpha, beta |\n\t\t gamma, delta" ∧
        o.pass.writer.alignment = none := by
  obtain ⟨hrange, hends, -⟩ := separated_wraps_on .wrapping
    { Options.initial with wrapColumn := 20 } 0 (p := called) comma_isSeparator roster_flat rfl
  have hrun := hrange ⟨by decide, by decide, by decide +kernel, by decide +kernel⟩
  obtain ⟨next, -, -, hend⟩ := hends _ hrun
  exact ⟨comma_isSeparator, roster_flat, rfl, _, hrun, by decide +kernel, hend rfl⟩

end Doc

/-- Where a tab is half as wide as a word, padding to that column never comes to its end: after one
tab the next one does not fit the word, or it leads back to where the padding began. -/
theorem Writer.padTo?_endless {w : Writer} (hi : w.indentation = ⟨true, words / 2⟩)
    (hw : w.position.virtualColumn = 0) (m : Machine) : w.padTo? m (words / 2) = none := by
  have first : m.fit (0 + words / 2) = some (words / 2) := Machine.fit_of_lt (by decide)
  have second : ∀ k, m.fit (words / 2 + words / 2) = some k → k = 0 := fun k hk => by
    cases m with
    | checked => cases hk
    | wrapping => exact (Option.some.inj hk).symm
  rw [Option.eq_none_iff_forall_ne_some]
  intro v h
  obtain ⟨tabbed, -, htabs, -, -⟩ := padTo?_eq h
  rw [padTabs?, hi, if_pos (by decide)] at htabs
  obtain ⟨⟨hindentation, hcolumn⟩, hend⟩ := putWhile?_induct (motive := fun u =>
    u.indentation = ⟨true, words / 2⟩ ∧
      (u.position.virtualColumn = 0 ∨ u.position.virtualColumn = words / 2)) htabs ⟨hi, .inl hw⟩ (by
    rintro u u' ⟨hu, hcolumn⟩ - hput
    have hfit := fit_of_put? (by decide) hput
    refine ⟨(put?_prints hput).indentation.trans hu, ?_⟩
    rw [if_pos rfl, hu] at hfit
    rcases hcolumn with hcolumn | hcolumn
    · rw [hcolumn, first] at hfit
      exact .inr (Option.some.inj hfit).symm
    · rw [hcolumn] at hfit
      exact .inl (second _ hfit))
  -- The test fails at neither column.
  rw [tabFits?, hindentation] at hend
  obtain ⟨stop, hfit, hstop⟩ := Option.bind_eq_some_iff.1 hend
  have hle : stop ≤ words / 2 := by
    rcases hcolumn with hcolumn | hcolumn
    · rw [hcolumn, first] at hfit
      exact Nat.le_of_eq (Option.some.inj hfit).symm
    · rw [hcolumn] at hfit
      rw [second _ hfit]
      exact Nat.zero_le _
  exact absurd hle (of_decide_eq_false (Option.some.inj hstop))

/-- A text that begins two levels deep. -/
def Doc.deep (i : Indentation) : Pass :=
  { Pass.initial .initial with writer := { Writer.new i with level := 2 } }

/-- A list that is begun where the indentation is longer than any text is aborted, and so is padding
with tabs that are half as wide as a word. -/
theorem Doc.wide_list_aborts :
    IsSeparator ", " ∧ (∀ item ∈ [text "a", text "b"], item.Flat (deep ⟨false, words / 4⟩).scope) ∧
      (deep ⟨false, words / 4⟩).writer.alignment = none ∧
      (∀ m, (separated ", " [text "a", text "b"]).run? m .initial 0 (deep ⟨false, words / 4⟩) =
        none) ∧
      ∀ m, (Writer.new ⟨true, words / 2⟩).padTo? m (words / 2) = none := by
  have hword : ∀ s : String, '\n' ∉ s.toList → (text s).Flat (deep ⟨false, words / 4⟩).scope :=
    fun _ hs => List.forall_mem_singleton.2 hs
  refine ⟨comma_isSeparator, ?_, rfl, fun m => ?_, Writer.padTo?_endless rfl rfl⟩
  · exact List.forall_mem_cons.2
      ⟨hword _ (by decide), List.forall_mem_singleton.2 (hword _ (by decide))⟩
  · cases m <;> rfl

end SourcePrinter
