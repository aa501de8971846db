import SourcePrinter.Proofs.Runs

/-! The spans of a run. A visit starts where its node was entered or at the indentation then due,
and stops where the node was left; the spans of a forest of visits lie one after the other, and
those inside a node within its span. What ties the two together is the floor, the earliest start
of the nodes finished so far. -/

namespace SourcePrinter

/-! ### Spans in order -/

/-- The spans of a forest lie between two positions. -/
def Forest.Lie : Forest Visited → Position → Position → Prop
  | nil, lo, hi => lo ≤ hi
  | node v inner rest, lo, hi =>
    lo ≤ v.span.start ∧ v.span.start ≤ v.span.stop ∧ inner.Lie v.span.start v.span.stop ∧
      rest.Lie v.span.stop hi

/-- Every tree of a forest that has one starts at a position or later. -/
def Forest.StartsFrom (lo : Position) : Forest Visited → Prop
  | nil => True
  | node v _ _ => lo ≤ v.span.start

/-- The earlier of two positions is one of them. -/
theorem Position.min_cases (a b : Position) : min a b = a ∨ min a b = b := by
  unfold min
  split
  · exact .inl rfl
  · exact .inr rfl

theorem Position.min_eq_right {a b : Position} (h : b ≤ a) : min a b = b := by
  unfold min
  split
  · next hab => exact le_antisymm hab h
  · rfl

namespace Forest.Lie

variable {f g : Forest Visited} {lo mid hi : Position}

theorem le (h : f.Lie lo hi) : lo ≤ hi := by
  induction f generalizing lo with
  | nil => exact h
  | node v inner rest _ ih =>
    obtain ⟨h1, h2, -, h3⟩ := h
    exact Position.le_trans (Position.le_trans h1 h2) (ih h3)

/-- The lower bound may be any position that the first tree does not start before. -/
theorem from_start (h : f.Lie lo hi) (hs : f.StartsFrom mid) (hm : mid ≤ hi) : f.Lie mid hi := by
  cases f with
  | nil => exact hm
  | node v inner rest => exact ⟨hs, h.2⟩

theorem append (h : f.Lie lo mid) (h' : g.Lie mid hi) : (f ++ g).Lie lo hi := by
  induction f generalizing lo with
  | nil =>
    refine h'.from_start ?_ (Position.le_trans h h'.le)
    cases g with
    | nil => trivial
    | node v inner rest => exact Position.le_trans h h'.1
  | node v inner rest _ ih => exact ⟨h.1, h.2.1, h.2.2.1, ih h.2.2.2⟩

/-- A span lies between the positions and does not end before it starts. -/
theorem mem (h : f.Lie lo hi) {v : Visited} (hv : v ∈ f.labels) :
    lo ≤ v.span.start ∧ v.span.start ≤ v.span.stop ∧ v.span.stop ≤ hi := by
  induction f generalizing lo hi with
  | nil => exact absurd hv List.not_mem_nil
  | node u inner rest ih ih' =>
    obtain ⟨h1, h2, h3, h4⟩ := h
    simp only [labels, List.mem_cons, List.mem_append] at hv
    rcases hv with rfl | hv | hv
    · exact ⟨h1, h2, h4.le⟩
    · obtain ⟨h5, h6, h7⟩ := ih h3 hv
      exact ⟨Position.le_trans h1 h5, h6, Position.le_trans h7 h4.le⟩
    · obtain ⟨h5, h6, h7⟩ := ih' h4 hv
      exact ⟨Position.le_trans (Position.le_trans h1 h2) h5, h6, h7⟩

/-- The span of a node holds the spans of the nodes below it. -/
theorem below (h : f.Lie lo hi) {v u : Visited} (hb : f.Below v u) :
    v.span.start ≤ u.span.start ∧ u.span.stop ≤ v.span.stop := by
  induction f generalizing lo hi with
  | nil => exact hb.elim
  | node w inner rest ih ih' =>
    obtain ⟨-, -, h3, h4⟩ := h
    rcases hb with ⟨rfl, hu⟩ | hb | hb
    · exact ⟨(h3.mem hu).1, (h3.mem hu).2.2⟩
    · exact ih h3 hb
    · exact ih' h4 hb

/-- A node that comes earlier ends before the later one starts. -/
theorem earlier (h : f.Lie lo hi) {v u : Visited} (he : f.Earlier v u) :
    v.span.stop ≤ u.span.start := by
  induction f generalizing lo hi with
  | nil => exact he.elim
  | node w inner rest ih ih' =>
    obtain ⟨-, -, h3, h4⟩ := h
    rcases he with ⟨hv, hu⟩ | he | he
    · refine Position.le_trans ?_ (h4.mem hu).1
      rcases hv with rfl | hv
      · exact Position.le_refl _
      · exact (h3.mem hv).2.2
    · exact ih h3 he
    · exact ih' h4 he

end Forest.Lie

/-! ### The floor -/

/-- Where the floor is after a run that started from `p` and made the visits `f`: no higher than it
was and than the first of the visits, and at no position between the start and the indentation. -/
structure Floors (p : Pass) (f : Forest Visited) (q : Pass) : Prop where
  lower : ∀ x ∈ q.floor, x ∈ p.floor ∨ x = p.writer.position ∨ p.writer.nextPosition ≤ x
  descends : ∀ x ∈ p.floor, ∃ y ∈ q.floor, y ≤ x
  reaches : ∀ lo, (∀ y ∈ q.floor, lo ≤ y) → f.StartsFrom lo

namespace Floors

variable {p q r : Pass} {f g : Forest Visited} {a : List Char}

/-- Writing moves no floor. -/
theorem still (h : q.floor = p.floor) : Floors p .nil q :=
  ⟨fun _ hx => .inl (h ▸ hx), fun x hx => ⟨x, h.symm ▸ hx, Position.le_refl x⟩, fun _ _ => trivial⟩

theorem trans (h : Floors p f q) (hw : p.writer.Grows a q.writer) (h' : Floors q g r) :
    Floors p (f ++ g) r where
  lower x hx := by
    rcases h'.lower x hx with hx | rfl | hx
    · exact h.lower x hx
    · by_cases ha : a = []
      · exact .inr (.inl (hw.position_eq_iff.2 ha))
      · exact .inr (.inr (hw.nextPosition_le ha))
    · refine .inr (.inr ?_)
      by_cases ha : a = []
      · subst ha
        rwa [hw.nextPosition_eq] at hx
      · exact Position.le_trans (hw.nextPosition_le ha)
          (Position.le_trans q.writer.position_le_nextPosition hx)
  descends x hx := by
    obtain ⟨y, hy, hyx⟩ := h.descends x hx
    obtain ⟨z, hz, hzy⟩ := h'.descends y hy
    exact ⟨z, hz, Position.le_trans hzy hyx⟩
  reaches lo hlo := by
    cases f with
    | nil => exact h'.reaches lo hlo
    | node v inner rest =>
      refine h.reaches lo fun y hy => ?_
      obtain ⟨z, hz, hzy⟩ := h'.descends y hy
      exact Position.le_trans (hlo z hz) hzy

end Floors

/-! ### The span of a visit -/

/-- A visit as a run makes it: the node is entered at `before` and its document run from there, and
its floor is no position between the two that it can start at. -/
structure Visited.Made (v : Visited) (added : List Char) : Prop where
  before : v.visit.before = v.before.position
  pending : v.visit.pending = v.before.nextPosition
  grows : v.before.Grows added v.left.writer
  floor : ∀ x ∈ v.left.floor, x = v.visit.before ∨ v.visit.pending ≤ x

namespace Visited.Made

variable {v : Visited} {a : List Char}

theorem before_le_pending (h : v.Made a) : v.visit.before ≤ v.visit.pending := by
  rw [h.before, h.pending]
  exact v.before.position_le_nextPosition

/-- A node that writes nothing is empty where it was entered. -/
theorem span_of_nil (h : v.Made []) : v.span = ⟨v.visit.before, v.visit.before⟩ := by
  refine if_pos ?_
  rw [h.before]
  exact h.grows.position_eq_iff.2 rfl

/-- The start of a node that writes something. -/
theorem start_of_ne_nil (h : v.Made a) (ha : a ≠ []) :
    v.span.start =
      match v.left.floor with
      | some floor => Position.min floor v.visit.pending
      | none => v.visit.pending := by
  have hne : v.left.writer.position ≠ v.visit.before := by
    rw [h.before]
    exact fun he => ha (h.grows.position_eq_iff.1 he)
  have hs : v.span = _ := if_neg hne
  exact congrArg Span.start hs

/-- The start of a node is where it was entered, or at the indentation that was due. -/
theorem start_cases (h : v.Made a) :
    v.span.start = v.visit.before ∨
      v.span.start = v.visit.pending ∧ a ≠ [] ∧ ∀ x ∈ v.left.floor, v.visit.pending ≤ x := by
  by_cases ha : a = []
  · subst ha
    exact .inl (by rw [h.span_of_nil])
  · rw [h.start_of_ne_nil ha]
    cases hf : v.left.floor with
    | none => exact .inr ⟨rfl, ha, nofun⟩
    | some x =>
      show Position.min x v.visit.pending = _ ∨ Position.min x v.visit.pending = _ ∧ _
      rcases h.floor x hf with hx | hx
      · refine .inl ?_
        rw [Position.min, if_pos (hx ▸ h.before_le_pending), hx]
      · refine .inr ⟨?_, ha, fun y hy => ?_⟩
        · exact Position.min_eq_right hx
        · cases hy
          exact hx

theorem start_le_pending (h : v.Made a) : v.span.start ≤ v.visit.pending := by
  rcases h.start_cases with hs | ⟨hs, -⟩
  · rw [hs]
    exact h.before_le_pending
  · rw [hs]
    exact Position.le_refl _

theorem before_le_start (h : v.Made a) : v.visit.before ≤ v.span.start := by
  rcases h.start_cases with hs | ⟨hs, -⟩
  · rw [hs]
    exact Position.le_refl _
  · rw [hs]
    exact h.before_le_pending

/-- No node inside starts before the node. -/
theorem start_le_floor (h : v.Made a) : ∀ x ∈ v.left.floor, v.span.start ≤ x := by
  intro x hx
  by_cases ha : a = []
  · subst ha
    rw [h.span_of_nil]
    rcases h.floor x hx with rfl | hp
    · exact Position.le_refl _
    · exact Position.le_trans h.before_le_pending hp
  · rw [h.start_of_ne_nil ha, show v.left.floor = some x from hx]
    exact Position.min_le_left _ _

theorem start_le_left (h : v.Made a) : v.span.start ≤ v.left.writer.position := by
  by_cases ha : a = []
  · subst ha
    rw [h.span_of_nil, h.before]
    exact h.grows.position_le
  · refine Position.le_trans h.start_le_pending ?_
    rw [h.pending]
    exact h.grows.nextPosition_le ha

/-- A node stops where it is left. -/
theorem stop_eq (h : v.Made a) : v.span.stop = v.left.writer.position := by
  by_cases ha : a = []
  · subst ha
    rw [h.span_of_nil, h.before]
    exact (h.grows.position_eq_iff.2 rfl).symm
  · have hne : v.left.writer.position ≠ v.visit.before := by
      rw [h.before]
      exact fun he => ha (h.grows.position_eq_iff.1 he)
    have hstop : v.span.stop = Position.max v.left.writer.position v.span.start := by
      unfold span Pass.spanOf
      rw [if_neg hne]
    rw [hstop]
    refine Position.le_antisymm ?_ (Position.le_max_left _ _)
    unfold Position.max
    split
    · exact h.start_le_left
    · exact Position.le_refl _

end Visited.Made

/-! ### Runs -/

namespace Doc

variable {options : Options} {d : Doc} {column : Nat} {p q : Pass} {f : Forest Visited}

/-- A node that is entered and left is a visit as a run makes it. -/
theorem made_of_enter {key : NodeKey} {a : List Char} (hw : p.writer.Grows a q.writer)
    (hf : Floors (p.enter key).2 f q) : Visited.Made ⟨(p.enter key).1, p.writer, q⟩ a where
  before := rfl
  pending := rfl
  grows := hw
  floor x hx := (hf.lower x hx).resolve_left nofun

/-- The floor after a node is the earlier of the floor before and the start of the node. -/
theorem floor_leave (q : Pass) (v : Visit) :
    ∃ y, (q.leave v false).floor = some y ∧ (y ∈ v.floor ∨ y = (q.spanOf v).start) ∧
      (∀ x ∈ v.floor, y ≤ x) ∧ y ≤ (q.spanOf v).start := by
  cases hv : v.floor with
  | none =>
    exact ⟨(q.spanOf v).start, by simp [Pass.leave, hv], .inr rfl, nofun, Position.le_refl _⟩
  | some old =>
    refine ⟨Position.min old (q.spanOf v).start, by simp [Pass.leave, hv], ?_, fun x hx => ?_,
      Position.min_le_right _ _⟩
    · exact (Position.min_cases old _).imp_left fun hm => congrArg some hm.symm
    · cases hx
      exact Position.min_le_left _ _

/-- Leaving a node lowers the floor to its start. -/
theorem floors_leave {key : NodeKey} {a : List Char}
    (h : Visited.Made ⟨(p.enter key).1, p.writer, q⟩ a) (inner : Forest Visited) :
    Floors p (.node ⟨(p.enter key).1, p.writer, q⟩ inner .nil)
      (q.leave (p.enter key).1 false) := by
  have hstart : (q.spanOf (p.enter key).1).start = p.writer.position ∨
      p.writer.nextPosition ≤ (q.spanOf (p.enter key).1).start := by
    rcases h.start_cases with hs | ⟨hs, -⟩
    · exact .inl hs
    · exact .inr (hs ▸ Position.le_refl _)
  obtain ⟨y, hy, hfrom, hold, hnew⟩ := floor_leave q (p.enter key).1
  refine ⟨fun x hx => ?_, fun x hx => ⟨y, hy, hold x hx⟩, fun lo hlo => ?_⟩
  · rw [hy] at hx
    cases hx
    rcases hfrom with hold | rfl
    · exact .inl hold
    · exact .inr hstart
  · exact Position.le_trans (hlo y hy) hnew

/-- The visits of a run lie between its two ends, and its floor is where it should be. -/
theorem Runs.floors (h : Runs options d column p f q) : Floors p f q := by
  induction h with
  | empty | text | newline | lineStart | typeGap | separator => exact .still rfl
  | append h _ ih ih' =>
    obtain ⟨a, ha⟩ := h.grows
    exact ih.trans ha ih'
  | @nested body column p q f h ih =>
    -- A level more only moves on the place of what comes next.
    refine ⟨fun x hx => ?_, ih.descends, ih.reaches⟩
    rcases ih.lower x hx with hx | hx | hx
    · exact .inl hx
    · exact .inr (.inl hx)
    · exact .inr (.inr (Position.le_trans p.writer.nextPosition_le_indent hx))
  | @aligned body column p q f h ih =>
    refine ⟨fun x hx => ?_, ih.descends, ih.reaches⟩
    have hb := p.writer.beginList_grows
    rcases ih.lower x hx with hx | hx | hx
    · exact .inl hx
    · exact .inr (.inl (hx.trans (hb.position_eq_iff.2 rfl)))
    · exact .inr (.inr (hb.nextPosition_eq ▸ hx))
  | @node key body column p q f _ _ h ih =>
    obtain ⟨a, ha⟩ := h.grows
    exact floors_leave (made_of_enter (p := p) ha ih) _
  | @unseen key body column p q f _ h ih =>
    obtain ⟨a, ha⟩ := h.grows
    have hl := floors_leave (made_of_enter (p := p) ha ih) .nil
    exact ⟨hl.lower, hl.descends, fun _ _ => trivial⟩
  | synthetic _ ih =>
    exact ⟨by simpa using ih.lower, by simpa using ih.descends, by simpa using ih.reaches⟩
  | inside _ ih => exact ⟨ih.lower, ih.descends, ih.reaches⟩
  | perScope _ ih | unsupported _ _ ih => exact ih

/-- The visits of a run lie one after the other between its two ends. -/
theorem Runs.lie (h : Runs options d column p f q) :
    f.Lie p.writer.position q.writer.position := by
  induction h with
  | empty => exact Position.le_refl _
  | text => exact Writer.position_le (Writer.writeChars_grows _ _)
  | newline => exact (Writer.newline_grows _).position_le
  | lineStart => exact Writer.position_le (Writer.ensureLineStart_grows _)
  | typeGap => exact Writer.position_le (Writer.blankLines_grows _ _)
  | separator => exact Writer.position_le (Writer.writeSeparator_grows _ _ _ _)
  | unseen _ h _ => exact Writer.position_le h.grows
  | append _ _ ih ih' => exact ih.append ih'
  | @aligned body column p q f _ ih =>
    have hb := p.writer.beginList_grows.position_eq_iff.2 rfl
    have he := (q.writer.endList_grows p.writer.beginList.2.2).position_eq_iff.2 rfl
    show f.Lie p.writer.position (q.writer.endList p.writer.beginList.2.2).position
    rw [he, ← hb]
    exact ih
  | @node key body column p q f _ _ h ih =>
    obtain ⟨a, ha⟩ := h.grows
    have hm := made_of_enter (p := p) ha h.floors
    refine ⟨hm.before_le_start, ?_, ?_, ?_⟩
    · rw [hm.stop_eq]
      exact hm.start_le_left
    · rw [hm.stop_eq]
      exact ih.from_start (h.floors.reaches _ hm.start_le_floor) hm.start_le_left
    · rw [hm.stop_eq]
      exact Position.le_refl _
  | synthetic _ ih => simpa using ih
  | nested _ ih | inside _ ih | perScope _ ih | unsupported _ _ ih => exact ih

end Doc

end SourcePrinter
