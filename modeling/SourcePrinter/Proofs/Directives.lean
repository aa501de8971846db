import SourcePrinter.Proofs.Constructs
import SourcePrinter.Proofs.Shift

/-! The lines of a text that start and end what is compiled under a condition. -/

namespace SourcePrinter

inductive Directive where
  | start
  | stop
  deriving DecidableEq, Repr

def Directive.text : Directive → List Char
  | start => "#if ".toList
  | stop => "#endif".toList

/-- Only spaces and tabs stand on the last line of a text, given whether that holds of the line on
which the text begins. -/
def blankLine : Bool → List Char → Bool
  | blank, [] => blank
  | blank, c :: rest => blankLine (c == '\n' || blank && (c == ' ' || c == '\t')) rest

/-- The directives in a text, in order, each with whether only spaces and tabs stand before it on
its line. -/
def directives : Bool → List Char → List (Directive × Bool)
  | _, [] => []
  | blank, c :: rest =>
    let others := directives (blankLine blank [c]) rest
    if Directive.start.text <+: c :: rest then (.start, blank) :: others
    else if Directive.stop.text <+: c :: rest then (.stop, blank) :: others
    else others

example : directives true "a\n  #if b\nc #endif".toList = [(.start, true), (.stop, false)] := by
  decide

/-- How many starts are open after directives, given how many are before. An end needs a start. -/
def Directive.level : Nat → List Directive → Option Nat
  | n, [] => some n
  | n, start :: more => level (n + 1) more
  | n + 1, stop :: more => level n more
  | 0, stop :: _ => none

/-! ### Texts without directives -/

section

variable (blank : Bool)

theorem blankLine_append (s t : List Char) :
    blankLine blank (s ++ t) = blankLine (blankLine blank s) t := by
  induction s generalizing blank with
  | nil => rfl
  | cons c rest ih => exact ih _

/-- Nothing stands on a line that starts. -/
theorem blankLine_of_endsLine {text : List Char} (h : endsLine true text = true) :
    blankLine true text = true := by
  have hlast : ∀ starts blank, (starts = true → blank = true) →
      endsLine starts text = true → blankLine blank text = true := by
    clear h
    induction text with
    | nil => exact fun starts blank h => h
    | cons c rest ih =>
      refine fun starts blank _ h => ih _ _ (fun hc => ?_) h
      rw [hc, Bool.true_or]
  exact hlast true true id h

theorem directives_cons_of_ne {c : Char} (hc : c ≠ '#') (rest : List Char) :
    directives blank (c :: rest) = directives (blankLine blank [c]) rest := by
  simp [directives, Directive.text, Ne.symm hc]

/-- No directive begins in a calm text. -/
theorem directives_append_of_calm {s : List Char} (h : calm s = true) (t : List Char) :
    directives blank (s ++ t) = directives (blankLine blank s) t := by
  induction s generalizing blank with
  | nil => rfl
  | cons c rest ih =>
    simp only [calm, Bool.and_eq_true, Bool.or_eq_true, bne_iff_ne] at h
    obtain ⟨hc, hrest⟩ := h
    rw [← List.singleton_append, blankLine_append, ← ih _ hrest]
    by_cases hsign : c = '#'
    · subst hsign
      cases rest with
      | nil => simp at hc
      | cons next more =>
        obtain ⟨hi, he⟩ : next ≠ 'i' ∧ next ≠ 'e' := by simpa using hc
        simp [directives, Directive.text, Ne.symm hi, Ne.symm he]
    · exact directives_cons_of_ne blank hsign _

end

/-- A margin has no directive, and leaves a blank line blank. -/
theorem blankLine_margin {margin : List Char} (h : ∀ c ∈ margin, c = ' ' ∨ c = '\t') :
    calm margin = true ∧ blankLine true margin = true := by
  induction margin with
  | nil => exact ⟨rfl, rfl⟩
  | cons c rest ih =>
    obtain ⟨hcalm, hblank⟩ := ih fun x hx => h x (List.mem_cons_of_mem _ hx)
    rcases h c List.mem_cons_self with rfl | rfl
    · exact ⟨hcalm, hblank⟩
    · exact ⟨hcalm, hblank⟩

section

variable {blank : Bool} {lead margin condition : List Char}

/-- The line that starts what is compiled under a condition. -/
theorem directives_start (hlead : calm lead = true) (hblank : blankLine blank lead = true)
    (hmargin : ∀ c ∈ margin, c = ' ' ∨ c = '\t') (hcondition : calm condition = true)
    (t : List Char) :
    directives blank (lead ++ margin ++ "#if ".toList ++ condition ++ ['\n'] ++ t) =
      (.start, true) :: directives true t := by
  obtain ⟨hcalm, hline⟩ := blankLine_margin hmargin
  have hsign : ∀ t, directives true ("#if ".toList ++ t) = (.start, true) :: directives false t :=
    fun t => by simp [directives, Directive.text, blankLine]
  have hrest : directives false (condition ++ ['\n'] ++ t) = directives true t := by
    rw [directives_append_of_calm _ (calm_append hcondition rfl), blankLine_append]
    rfl
  calc directives blank (lead ++ margin ++ "#if ".toList ++ condition ++ ['\n'] ++ t)
    _ = directives blank ((lead ++ margin) ++ ("#if ".toList ++ (condition ++ ['\n'] ++ t))) := by
      simp only [List.append_assoc]
    _ = directives true ("#if ".toList ++ (condition ++ ['\n'] ++ t)) := by
      rw [directives_append_of_calm _ (calm_append hlead hcalm), blankLine_append, hblank, hline]
    _ = (.start, true) :: directives true t := by rw [hsign, hrest]

/-- The line that ends it. -/
theorem directives_stop (hmargin : ∀ c ∈ margin, c = ' ' ∨ c = '\t') (t : List Char) :
    directives true (margin ++ "#endif\n".toList ++ t) = (.stop, true) :: directives true t := by
  obtain ⟨hcalm, hline⟩ := blankLine_margin hmargin
  have hsign : directives true ("#endif\n".toList ++ t) = (.stop, true) :: directives true t := by
    simp [directives, Directive.text, blankLine]
  rw [List.append_assoc, directives_append_of_calm _ hcalm, hline, hsign]

end

/-- Blanks make no directive. -/
theorem calm_of_ink {text : List Char} (h : calm (text.filter isInk) = true) :
    calm text = true := by
  induction text with
  | nil => rfl
  | cons c rest ih =>
    by_cases hc : isInk c = true
    · rw [List.filter_cons_of_pos hc] at h
      simp only [calm, Bool.and_eq_true] at h ⊢
      refine ⟨?_, ih h.2⟩
      cases rest with
      | nil => exact h.1
      | cons next more =>
        by_cases hn : isInk next = true
        · rw [List.filter_cons_of_pos hn] at h
          exact h.1
        · have hne : next ≠ 'i' ∧ next ≠ 'e' := by
            constructor <;> rintro rfl <;> exact hn rfl
          simp [hne]
    · rw [List.filter_cons_of_neg hc] at h
      have hsign : c ≠ '#' := by
        rintro rfl
        exact hc rfl
      simp [calm, hsign, ih h]

/-! ### The directives of a forest -/

namespace Forest

/-- The directives around the constructs that have a condition. -/
def guards : Forest Construct → List Directive
  | nil => []
  | node k inner rest =>
    match k.condition with
    | none => inner.guards ++ rest.guards
    | some _ => .start :: inner.guards ++ .stop :: rest.guards

theorem guards_append (f g : Forest Construct) :
    (f ++ g).guards = f.guards ++ g.guards := by
  induction f with
  | nil => rfl
  | node k inner rest _ ih =>
    rw [node_append, guards, guards, ih]
    split
    · exact (List.append_assoc ..).symm
    · simp

/-- Every start has its end behind it, and every end its start before it. -/
theorem level_guards (f : Forest Construct) (n : Nat) (more : List Directive) :
    Directive.level n (f.guards ++ more) = Directive.level n more := by
  induction f generalizing n more with
  | nil => rfl
  | node k inner rest ih ih' =>
    rw [guards]
    split
    · rw [List.append_assoc, ih, ih']
    · rw [List.append_assoc, List.cons_append, Directive.level, ih, List.cons_append,
        Directive.level, ih']

/-- There is one pair for each construct with a condition. -/
theorem count_guards (f : Forest Construct) (x : Directive) :
    f.guards.count x = f.labels.countP fun k => k.condition.isSome := by
  induction f with
  | nil => rfl
  | node k inner rest ih ih' =>
    rw [guards, labels]
    split
    · next hk => simp [hk, ih, ih']
    · next hk =>
      cases x with
      | start => simp [hk, ih, ih']
      | stop => simp [hk, ih, ih', Nat.add_assoc]

end Forest

end SourcePrinter
