import SourcePrinter.Proofs.Events

/-! Forests: the nodes for which a rendering keeps spans, each with those inside it. A forest fits
an outline when nothing in it is lost but whole nodes, so that what it shows of two nodes is what
the tree says of them. -/

namespace SourcePrinter

/-- Trees in order. -/
inductive Forest (α : Type) where
  | nil
  | node (a : α) (inner rest : Forest α)

namespace Forest

variable {α β : Type}

/-- Trees after others. -/
def append : Forest α → Forest α → Forest α
  | nil, f => f
  | node a inner rest, f => node a inner (append rest f)

instance : Append (Forest α) := ⟨append⟩

/-- Changes every label. -/
def map (g : α → β) : Forest α → Forest β
  | nil => nil
  | node a inner rest => node (g a) (inner.map g) (rest.map g)

/-- The labels, from the first to the last that is met. -/
def labels : Forest α → List α
  | nil => []
  | node a inner rest => a :: (inner.labels ++ rest.labels)

/-- The label `b` stands below the label `a`. -/
def Below (a b : α) : Forest α → Prop
  | nil => False
  | node c inner rest => c = a ∧ b ∈ inner.labels ∨ inner.Below a b ∨ rest.Below a b

/-- The label `b` stands where no label `a` is above it. -/
def Outside (a b : α) : Forest α → Prop
  | nil => False
  | node c inner rest => c = b ∨ c ≠ a ∧ inner.Outside a b ∨ rest.Outside a b

/-- The label `a` stands in a tree before one with the label `b`. -/
def Earlier (a b : α) : Forest α → Prop
  | nil => False
  | node c inner rest =>
    (a = c ∨ a ∈ inner.labels) ∧ b ∈ rest.labels ∨ inner.Earlier a b ∨ rest.Earlier a b

@[simp] theorem nil_append (f : Forest α) : nil ++ f = f := rfl

@[simp] theorem node_append (a : α) (inner rest f : Forest α) :
    node a inner rest ++ f = node a inner (rest ++ f) := rfl

@[simp] theorem append_nil (f : Forest α) : f ++ nil = f := by
  induction f with
  | nil => rfl
  | node a inner rest _ ih => rw [node_append, ih]

theorem append_assoc (e f g : Forest α) : e ++ f ++ g = e ++ (f ++ g) := by
  induction e with
  | nil => rfl
  | node a inner rest _ ih => simp only [node_append, ih]

@[simp] theorem map_append (g : α → β) (e f : Forest α) : (e ++ f).map g = e.map g ++ f.map g := by
  induction e with
  | nil => rfl
  | node a inner rest _ ih => rw [node_append, map, map, ih, node_append]

@[simp] theorem labels_append (e f : Forest α) : (e ++ f).labels = e.labels ++ f.labels := by
  induction e with
  | nil => rfl
  | node a inner rest _ ih => simp [labels, ih]

@[simp] theorem labels_map (g : α → β) (f : Forest α) : (f.map g).labels = f.labels.map g := by
  induction f with
  | nil => rfl
  | node a inner rest ih ih' => simp [map, labels, ih, ih']

theorem below_append {a b : α} {e f : Forest α} :
    (e ++ f).Below a b ↔ e.Below a b ∨ f.Below a b := by
  induction e with
  | nil => simp [Below]
  | node c inner rest _ ih => simp [Below, ih, or_assoc]

theorem outside_append {a b : α} {e f : Forest α} :
    (e ++ f).Outside a b ↔ e.Outside a b ∨ f.Outside a b := by
  induction e with
  | nil => simp [Outside]
  | node c inner rest _ ih => simp [Outside, ih, or_assoc]

theorem earlier_append {a b : α} {e f : Forest α} :
    (e ++ f).Earlier a b ↔
      e.Earlier a b ∨ f.Earlier a b ∨ a ∈ e.labels ∧ b ∈ f.labels := by
  induction e with
  | nil => simp [Earlier, labels]
  | node c inner rest _ ih =>
    simp only [node_append, Earlier, labels_append, List.mem_append, ih, labels, List.mem_cons]
    grind

theorem Below.mem {a b : α} {f : Forest α} (h : f.Below a b) : a ∈ f.labels ∧ b ∈ f.labels := by
  induction f with
  | nil => exact h.elim
  | node c inner rest ih ih' =>
    simp only [labels, List.mem_cons, List.mem_append]
    rcases h with ⟨rfl, hb⟩ | h | h
    · exact ⟨.inl rfl, .inr (.inl hb)⟩
    · exact ⟨.inr (.inl (ih h).1), .inr (.inl (ih h).2)⟩
    · exact ⟨.inr (.inr (ih' h).1), .inr (.inr (ih' h).2)⟩

theorem Outside.mem {a b : α} {f : Forest α} (h : f.Outside a b) : b ∈ f.labels := by
  induction f with
  | nil => exact h.elim
  | node c inner rest ih ih' =>
    simp only [labels, List.mem_cons, List.mem_append]
    rcases h with rfl | ⟨-, h⟩ | h
    · exact .inl rfl
    · exact .inr (.inl (ih h))
    · exact .inr (.inr (ih' h))

theorem Earlier.mem {a b : α} {f : Forest α} (h : f.Earlier a b) :
    a ∈ f.labels ∧ b ∈ f.labels := by
  induction f with
  | nil => exact h.elim
  | node c inner rest ih ih' =>
    simp only [labels, List.mem_cons, List.mem_append]
    rcases h with ⟨ha, hb⟩ | h | h
    · exact ⟨ha.imp_right .inl, .inr (.inr hb)⟩
    · exact ⟨.inr (.inl (ih h).1), .inr (.inl (ih h).2)⟩
    · exact ⟨.inr (.inr (ih' h).1), .inr (.inr (ih' h).2)⟩

/-- Of two labels, one is below the other or comes before it. -/
theorem compare {a b : α} {f : Forest α} (ha : a ∈ f.labels) (hb : b ∈ f.labels) :
    a = b ∨ f.Below a b ∨ f.Below b a ∨ f.Earlier a b ∨ f.Earlier b a := by
  induction f with
  | nil => exact absurd ha List.not_mem_nil
  | node c inner rest ih ih' =>
    simp only [labels, List.mem_cons, List.mem_append] at ha hb
    simp only [Below, Earlier]
    rcases ha with rfl | ha | ha <;> rcases hb with rfl | hb | hb
    · exact .inl rfl
    · exact .inr (.inl (.inl ⟨rfl, hb⟩))
    · exact .inr (.inr (.inr (.inl (.inl ⟨.inl rfl, hb⟩))))
    · exact .inr (.inr (.inl (.inl ⟨rfl, ha⟩)))
    · have := ih ha hb
      grind
    · exact .inr (.inr (.inr (.inl (.inl ⟨.inr ha, hb⟩))))
    · exact .inr (.inr (.inr (.inr (.inl ⟨.inl rfl, ha⟩))))
    · exact .inr (.inr (.inr (.inr (.inl ⟨.inr hb, ha⟩))))
    · have := ih' ha hb
      grind

/-- A label stands below another, or somewhere outside it. -/
theorem outside_or_below (a : α) {b : α} {f : Forest α} (hb : b ∈ f.labels) :
    f.Outside a b ∨ f.Below a b := by
  induction f with
  | nil => exact absurd hb List.not_mem_nil
  | node c inner rest ih ih' =>
    simp only [labels, List.mem_cons, List.mem_append] at hb
    simp only [Outside, Below]
    rcases hb with rfl | hb | hb
    · exact .inl (.inl rfl)
    · by_cases hc : c = a
      · exact .inr (.inl ⟨hc, hb⟩)
      · rcases ih hb with h | h
        · exact .inl (.inr (.inl ⟨hc, h⟩))
        · exact .inr (.inr (.inl h))
    · rcases ih' hb with h | h
      · exact .inl (.inr (.inr h))
      · exact .inr (.inr (.inr h))

theorem exists_of_below_map {g : α → β} {f : Forest α} {a b : β} (h : (f.map g).Below a b) :
    ∃ v u, g v = a ∧ g u = b ∧ f.Below v u := by
  induction f with
  | nil => exact h.elim
  | node c inner rest ih ih' =>
    rcases h with ⟨hc, hb⟩ | h | h
    · rw [labels_map, List.mem_map] at hb
      obtain ⟨u, hu, hub⟩ := hb
      exact ⟨c, u, hc, hub, .inl ⟨rfl, hu⟩⟩
    · obtain ⟨v, u, hv, hu, hl⟩ := ih h
      exact ⟨v, u, hv, hu, .inr (.inl hl)⟩
    · obtain ⟨v, u, hv, hu, hl⟩ := ih' h
      exact ⟨v, u, hv, hu, .inr (.inr hl)⟩

theorem exists_of_earlier_map {g : α → β} {f : Forest α} {a b : β} (h : (f.map g).Earlier a b) :
    ∃ v u, g v = a ∧ g u = b ∧ f.Earlier v u := by
  induction f with
  | nil => exact h.elim
  | node c inner rest ih ih' =>
    rcases h with ⟨ha, hb⟩ | h | h
    · rw [labels_map, List.mem_map] at hb
      obtain ⟨u, hu, hub⟩ := hb
      rcases ha with hc | ha
      · exact ⟨c, u, hc.symm, hub, .inl ⟨.inl rfl, hu⟩⟩
      · rw [labels_map, List.mem_map] at ha
        obtain ⟨v, hv, hva⟩ := ha
        exact ⟨v, u, hva, hub, .inl ⟨.inr hv, hu⟩⟩
    · obtain ⟨v, u, hv, hu, he⟩ := ih h
      exact ⟨v, u, hv, hu, .inr (.inl he)⟩
    · obtain ⟨v, u, hv, hu, he⟩ := ih' h
      exact ⟨v, u, hv, hu, .inr (.inr he)⟩

end Forest

/-! ### Forests that fit an outline -/

/-- A forest shows no node more often than the tree has it, no node below another that is not there
in the tree, and no two nodes of a list in the wrong order. A node stands outside another only if
it does in the tree, or if the other is not shown: that cannot be a type reference. -/
structure Forest.Fits (f : Forest NodeKey) (o : Outline) : Prop where
  count : ∀ k, f.labels.count k ≤ o.keys.count k
  below : ∀ a b, f.Below a b → o.Below a b
  outside : ∀ a b, f.Outside a b →
    o.Outside a b ∨ a.category ≠ .typeReference ∧ f.labels.count a < o.keys.count a
  order : ∀ a b, o.Before a b → o.keys.count a ≤ 1 → o.keys.count b ≤ 1 → ¬ f.Earlier b a

namespace Forest.Fits

variable {f g : Forest NodeKey} {o x y : Outline}

theorem mem (h : f.Fits o) {k : NodeKey} (hk : k ∈ f.labels) : k ∈ o.keys :=
  List.count_pos_iff.1 (Nat.lt_of_lt_of_le (List.count_pos_iff.2 hk) (h.count k))

theorem nil (o : Outline) : Forest.nil.Fits o where
  count _ := Nat.zero_le _
  below _ _ h := h.elim
  outside _ _ h := h.elim
  order _ _ _ _ _ h := h.elim

/-- What fits below a node fits the tree of the node. -/
theorem node (h : f.Fits o) (n : Node) : (Forest.node n.key f .nil).Fits (.node n o) where
  count k := by
    simp only [labels, Outline.keys, List.append_nil, List.count_cons]
    exact Nat.add_le_add_right (h.count k) _
  below a b hab := by
    rcases hab with ⟨rfl, hb⟩ | hab | hab
    · exact .inl ⟨rfl, h.mem hb⟩
    · exact .inr (h.below a b hab)
    · exact hab.elim
  outside a b hab := by
    rcases hab with hb | ⟨ha, hab⟩ | hab
    · exact .inl (.inl hb)
    · rcases h.outside a b hab with ho | ⟨hc, hlt⟩
      · exact .inl (.inr ⟨ha, ho⟩)
      · refine .inr ⟨hc, ?_⟩
        simpa [labels, Outline.keys, List.count_cons, ha] using hlt
    · exact hab.elim
  order a b hab ha hb he := by
    simp only [Outline.keys, List.count_cons] at ha hb
    rcases he with ⟨-, hn⟩ | he | he
    · exact (List.not_mem_nil hn).elim
    · exact h.order a b hab (by omega) (by omega) he
    · exact he.elim

/-- A node that is no type reference may be left out. -/
theorem within (h : f.Fits o) {n : Node} (hn : n.key.category ≠ .typeReference) :
    f.Fits (.node n o) where
  count k := by
    simp only [Outline.keys, List.count_cons]
    exact Nat.le_trans (h.count k) (Nat.le_add_right _ _)
  below a b hab := .inr (h.below a b hab)
  outside a b hab := by
    have hc := h.count a
    by_cases ha : n.key = a
    · refine .inr ⟨ha ▸ hn, ?_⟩
      simp only [Outline.keys, List.count_cons, ha, BEq.rfl, if_true]
      omega
    · rcases h.outside a b hab with ho | ⟨hk, hlt⟩
      · exact .inl (.inr ⟨ha, ho⟩)
      · refine .inr ⟨hk, ?_⟩
        simp only [Outline.keys, List.count_cons]
        omega
  order a b hab ha hb := by
    simp only [Outline.keys, List.count_cons] at ha hb
    exact h.order a b hab (by omega) (by omega)

/-- Two parts that are rendered one after the other share no node that the tree has once. -/
theorem not_mem_of_count (hf : f.Fits x) {k : NodeKey} (hy : k ∈ y.keys)
    (hk : x.keys.count k + y.keys.count k ≤ 1) : k ∉ f.labels := by
  intro hm
  have h1 := List.count_pos_iff.2 (hf.mem hm)
  have h2 := List.count_pos_iff.2 hy
  omega

theorem beside (hf : f.Fits x) (hg : g.Fits y) : (f ++ g).Fits (.beside x y) where
  count k := by
    simp only [labels_append, Outline.keys, List.count_append]
    exact Nat.add_le_add (hf.count k) (hg.count k)
  below a b hab := (below_append.1 hab).imp (hf.below a b) (hg.below a b)
  outside a b hab := by
    have hx := hf.count a
    have hy := hg.count a
    simp only [labels_append, Outline.keys, List.count_append]
    rcases outside_append.1 hab with h | h
    · rcases hf.outside a b h with ho | ⟨hc, hlt⟩
      · exact .inl (.inl ho)
      · exact .inr ⟨hc, by omega⟩
    · rcases hg.outside a b h with ho | ⟨hc, hlt⟩
      · exact .inl (.inr ho)
      · exact .inr ⟨hc, by omega⟩
  order a b hab ha hb he := by
    simp only [Outline.keys, List.count_append] at ha hb
    rcases hab with h | h
    · rcases earlier_append.1 he with e | e | ⟨-, e⟩
      · exact hf.order a b h (by omega) (by omega) e
      · exact hg.not_mem_of_count h.mem.1 (by omega) e.mem.2
      · exact hg.not_mem_of_count h.mem.1 (by omega) e
    · rcases earlier_append.1 he with e | e | ⟨e, -⟩
      · exact hf.not_mem_of_count h.mem.1 (by omega) e.mem.2
      · exact hg.order a b h (by omega) (by omega) e
      · exact hf.not_mem_of_count h.mem.2 (by omega) e

theorem before (hf : f.Fits x) (hg : g.Fits y) : (f ++ g).Fits (.before x y) where
  count := (hf.beside hg).count
  below := (hf.beside hg).below
  outside := (hf.beside hg).outside
  order a b hab ha hb he := by
    rcases hab with ⟨hx, hy⟩ | h
    · simp only [Outline.keys, List.count_append] at ha hb
      rcases earlier_append.1 he with e | e | ⟨e, -⟩
      · exact hf.not_mem_of_count hy (by omega) e.mem.1
      · exact hg.not_mem_of_count hx (by omega) e.mem.2
      · exact hf.not_mem_of_count hy (by omega) e
    · exact (hf.beside hg).order a b h ha hb he

theorem alike (h : f.Fits x) (hxy : x.Alike y) : f.Fits y where
  count k := hxy.count k ▸ h.count k
  below a b hab := (hxy.below a b).1 (h.below a b hab)
  outside a b hab := by
    rw [← hxy.outside, ← hxy.count]
    exact h.outside a b hab
  order a b hab ha hb := by
    rw [← hxy.count] at ha hb
    exact h.order a b ((hxy.before a b).2 hab) ha hb

/-- The order of a list may be forgotten. -/
theorem unordered (h : f.Fits (.before x y)) : f.Fits (.beside x y) where
  count := h.count
  below := h.below
  outside := h.outside
  order a b hab := h.order a b (.inr hab)

/-- A node without parts that is not shown may be taken away. -/
theorem drop {n : Node} (h : f.Fits (.beside (.node n .nothing) o)) (hn : n.key ∉ f.labels) :
    f.Fits o where
  count k := by
    have hk := h.count k
    simp only [Outline.keys, List.singleton_append, List.count_cons] at hk
    by_cases hnk : n.key = k
    · rw [List.count_eq_zero_of_not_mem (hnk ▸ hn)]
      exact Nat.zero_le _
    · simpa [hnk] using hk
  below a b hab := by
    rcases h.below a b hab with (⟨-, hb⟩ | hb) | hb
    · exact (List.not_mem_nil hb).elim
    · exact hb.elim
    · exact hb
  outside a b hab := by
    have hb : b ∈ o.keys := by
      rcases List.mem_append.1 (h.mem hab.mem) with hb | hb
      · exact absurd (List.mem_singleton.1 hb ▸ hab.mem) hn
      · exact hb
    rcases h.outside a b hab with ((rfl | ⟨-, ho⟩) | ho) | ⟨hc, hlt⟩
    · exact absurd hab.mem hn
    · exact ho.elim
    · exact .inl ho
    · by_cases ha : a ∈ o.keys
      · refine .inr ⟨hc, ?_⟩
        by_cases hna : n.key = a
        · rw [List.count_eq_zero_of_not_mem (hna ▸ hn)]
          exact List.count_pos_iff.2 ha
        · simpa [Outline.keys, List.count_cons, hna] using hlt
      · exact .inl (Outline.outside_of_not_mem ha hb)
  order a b hab ha hb he := by
    have hna : n.key ≠ a := fun hna => hn (hna ▸ he.mem.2)
    have hnb : n.key ≠ b := fun hnb => hn (hnb ▸ he.mem.1)
    exact h.order a b (.inr hab) (by simpa [Outline.keys, hna] using ha)
      (by simpa [Outline.keys, hnb] using hb) he

end Forest.Fits

end SourcePrinter
