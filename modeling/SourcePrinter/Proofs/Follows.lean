import SourcePrinter.Proofs.Forest

/-! How the events of a document follow an outline: nodes are rendered where the tree has them, gaps
are remarked on in the words of the hooks, and faults are faults of a node. The relation says
nothing of the rules of a language; that the rules keep it is proved from them one by one. -/

namespace SourcePrinter

/-! ### The nodes with spans -/

/-- The nodes for which spans are kept, where those of some nodes are not. -/
def Events.recorded : Events → List NodeKey → Forest NodeKey
  | done, _ => .nil
  | node key inner rest, synthetic =>
    if key ∈ synthetic then rest.recorded synthetic
    else .node key (inner.recorded synthetic) (rest.recorded synthetic)
  | hidden key inner rest, synthetic =>
    inner.recorded (synthetic.insert key) ++ rest.recorded synthetic
  | gap _ _ said rest, synthetic => said.recorded synthetic ++ rest.recorded synthetic
  | fault _ rest, synthetic => rest.recorded synthetic

namespace Events

@[simp] theorem recorded_append (a b : Events) (synthetic : List NodeKey) :
    (a ++ b).recorded synthetic = a.recorded synthetic ++ b.recorded synthetic := by
  induction a generalizing synthetic with
  | done => rfl
  | node key inner rest _ ih =>
    simp only [node_append, recorded, ih]
    split <;> simp
  | hidden key inner rest _ ih => simp only [hidden_append, recorded, ih, Forest.append_assoc]
  | gap g remark said rest _ ih => simp only [gap_append, recorded, ih, Forest.append_assoc]
  | fault detail rest ih => simp only [fault_append, recorded, ih]

/-- Nodes without spans are not shown. -/
theorem not_mem_recorded (e : Events) {synthetic : List NodeKey} {k : NodeKey}
    (hk : k ∈ synthetic) : k ∉ (e.recorded synthetic).labels := by
  induction e generalizing synthetic with
  | done => exact List.not_mem_nil
  | node key inner rest ih ih' =>
    rw [recorded]
    split
    · exact ih' hk
    · next h =>
      simp only [Forest.labels, List.mem_cons, List.mem_append, not_or]
      exact ⟨fun heq => h (heq ▸ hk), ih hk, ih' hk⟩
  | hidden key inner rest ih ih' =>
    simp only [recorded, Forest.labels_append, List.mem_append, not_or]
    exact ⟨ih (List.mem_insert_of_mem hk), ih' hk⟩
  | gap g remark said rest ih ih' =>
    simp only [recorded, Forest.labels_append, List.mem_append, not_or]
    exact ⟨ih hk, ih' hk⟩
  | fault detail rest ih => exact ih hk

/-- A node is shown at most as often as it is rendered. -/
theorem count_recorded_le (e : Events) (synthetic : List NodeKey) (k : NodeKey) :
    (e.recorded synthetic).labels.count k ≤ e.rendered.count k := by
  induction e generalizing synthetic with
  | done => exact Nat.le_refl _
  | node key inner rest ih ih' =>
    have h := ih synthetic
    have h' := ih' synthetic
    rw [recorded]
    split
    · simp only [rendered, List.count_cons, List.count_append]
      omega
    · simp only [Forest.labels, rendered, List.count_cons, List.count_append]
      omega
  | hidden key inner rest ih ih' =>
    have h := ih (synthetic.insert key)
    have h' := ih' synthetic
    simp only [recorded, Forest.labels_append, rendered, List.count_append]
    omega
  | gap g remark said rest ih ih' =>
    have h := ih synthetic
    have h' := ih' synthetic
    simp only [recorded, Forest.labels_append, rendered, List.count_append]
    omega
  | fault detail rest ih => exact ih synthetic

end Events

/-! ### The relation -/

/-- A text of a message: nothing in it can end a comment or a line. -/
def Plain (s : String) : Prop := ∀ c ∈ s.toList, c ≠ '*' ∧ c ≠ '\n'

/-- A literal is its characters, so they can be looked at without decoding its bytes. -/
theorem Plain.of_chars {text : List Char}
    (h : (text.all fun c => c != '*' && c != '\n') = true) : Plain (String.ofList text) := by
  intro c hc
  rw [String.toList_ofList] at hc
  simpa using List.all_eq_true.1 h c hc

/-- A gap in plain words. -/
structure Gap.Plain (g : Gap) : Prop where
  construct : SourcePrinter.Plain g.construct
  detail : ∀ s ∈ g.detail, SourcePrinter.Plain s

/-- The faults of the nodes of a tree, with their messages. -/
abbrev Faults := Node → String → Prop

/-- The events of a part of a node follow an outline. -/
inductive Follows (hooks : Hooks) (faults : Faults) : Node → Events → Outline → Prop where
  /-- Any part may be left out. -/
  | nothing {n : Node} {o : Outline} : Follows hooks faults n .done o
  | node {n m : Node} {e : Events} {o : Outline} :
    Follows hooks faults m e o → Follows hooks faults n (.node m.key e .done) (.node m o)
  /-- A node may be left out and its parts rendered as those of the node around it. -/
  | within {n m : Node} {e : Events} {o : Outline} :
    m.key.category ≠ .typeReference → Follows hooks faults n e o →
    Follows hooks faults n e (.node m o)
  | beside {n : Node} {a b : Events} {x y : Outline} :
    Follows hooks faults n a x → Follows hooks faults n b y →
    Follows hooks faults n (a ++ b) (.beside x y)
  | before {n : Node} {a b : Events} {x y : Outline} :
    Follows hooks faults n a x → Follows hooks faults n b y →
    Follows hooks faults n (a ++ b) (.before x y)
  /-- The parts of a node may be rendered in any order, the elements of its lists in theirs. -/
  | alike {n : Node} {e : Events} {x y : Outline} :
    x.Alike y → Follows hooks faults n e x → Follows hooks faults n e y
  /-- The order of a list may be forgotten. -/
  | unordered {n : Node} {e : Events} {x y : Outline} :
    Follows hooks faults n e (.before x y) → Follows hooks faults n e (.beside x y)
  | gap {n : Node} {g : Gap} {o : Outline} :
    g.language = hooks.name → g.Plain →
    Follows hooks faults n (.gap g (hooks.inlineComment g.message) .done .done) o
  | fault {n : Node} {detail : String} {o : Outline} :
    faults n detail → Follows hooks faults n (.fault detail .done) o
  /-- A node that a type reference carries is rendered without spans, in place of the reference. -/
  | carried {n m t : Node} {e : Events} {x o : Outline} :
    Follows hooks faults m e o →
    Follows hooks faults n (.hidden m.key (.node m.key e .done) .done)
      (.node t (.beside x (.carried (.node m o))))
  /-- A node without parts that the tree does not have, and none without a span, is rendered among
  those that it has. -/
  | detached {n m : Node} {e : Events} {o : Outline} :
    (∀ detail, ¬ faults m detail) → Follows hooks faults n e (.beside (.node m .nothing) o) →
    Follows hooks faults n (.hidden m.key e .done) o
  | idle {n : Node} {key : NodeKey} {o : Outline} :
    Follows hooks faults n (.hidden key .done .done) o

namespace Follows

variable {hooks : Hooks} {faults : Faults} {n : Node} {e : Events} {o x y z : Outline}

/-- The nodes with spans fit the outline. -/
theorem fits (h : Follows hooks faults n e o) (synthetic : List NodeKey) :
    (e.recorded synthetic).Fits o := by
  induction h generalizing synthetic with
  | nothing | idle => exact .nil _
  | gap | fault => exact .nil _
  | node _ ih =>
    simp only [Events.recorded]
    split
    · exact .nil _
    · exact (ih synthetic).node _
  | within hn _ ih => exact (ih synthetic).within hn
  | beside _ _ ih ih' =>
    rw [Events.recorded_append]
    exact (ih synthetic).beside (ih' synthetic)
  | before _ _ ih ih' =>
    rw [Events.recorded_append]
    exact (ih synthetic).before (ih' synthetic)
  | alike hxy _ ih => exact (ih synthetic).alike hxy
  | unordered _ ih => exact (ih synthetic).unordered
  | carried =>
    simp only [Events.recorded, List.mem_insert_self, if_true]
    exact .nil _
  | detached _ _ ih =>
    rw [Events.recorded, Events.recorded, Forest.append_nil]
    exact (ih _).drop (Events.not_mem_recorded _ List.mem_insert_self)

/-- A fault that ends a run is the fault of a node. -/
theorem fault_of_failure (h : Follows hooks faults n e o) {strict : Bool} {detail : String}
    (hf : e.failure strict = some (.malformed detail)) : ∃ m ∈ n :: o.nodes, faults m detail := by
  induction h with
  | nothing | idle => cases hf
  | gap => cases strict <;> cases hf
  | fault hd =>
    cases hf
    exact ⟨_, List.mem_cons_self, hd⟩
  | node _ ih =>
    obtain ⟨m, hm, hd⟩ := ih (by simpa [Events.failure] using hf)
    exact ⟨m, List.mem_cons_of_mem _ hm, hd⟩
  | within _ _ ih =>
    obtain ⟨m, hm, hd⟩ := ih hf
    refine ⟨m, ?_, hd⟩
    rcases List.mem_cons.1 hm with rfl | hm
    · exact List.mem_cons_self
    · exact List.mem_cons_of_mem _ (List.mem_cons_of_mem _ hm)
  | beside _ _ ih ih' | before _ _ ih ih' =>
    rw [Events.failure_append, Option.or_eq_some_iff] at hf
    simp only [Outline.nodes, List.mem_cons, List.mem_append] at ih ih' ⊢
    rcases hf with hf | ⟨-, hf⟩
    · obtain ⟨m, hm, hd⟩ := ih hf
      exact ⟨m, hm.imp_right .inl, hd⟩
    · obtain ⟨m, hm, hd⟩ := ih' hf
      exact ⟨m, hm.imp_right .inr, hd⟩
  | alike hxy _ ih =>
    obtain ⟨m, hm, hd⟩ := ih hf
    rw [List.mem_cons, hxy.nodes] at hm
    exact ⟨m, List.mem_cons.2 hm, hd⟩
  | unordered _ ih => exact ih hf
  | carried _ ih =>
    obtain ⟨m, hm, hd⟩ := ih (by simpa [Events.failure] using hf)
    refine ⟨m, ?_, hd⟩
    simp only [Outline.nodes, List.mem_cons, List.mem_append] at hm ⊢
    exact .inr (.inr (.inr hm))
  | detached hm _ ih =>
    -- The condition that no tree has is without fault, so another node has it.
    obtain ⟨k, hk, hd⟩ := ih (by simpa [Events.failure] using hf)
    simp only [Outline.nodes, List.mem_cons, List.mem_append, List.not_mem_nil, or_false] at hk ⊢
    rcases hk with hk | rfl | hk
    · exact ⟨k, .inl hk, hd⟩
    · exact absurd hd (hm detail)
    · exact ⟨k, .inr hk, hd⟩

end Follows

/-! ### Remarks -/

/-- Every gap of the language is in plain words, and the remark on it is what the hooks make of
its message. -/
def Events.Remarked (hooks : Hooks) : Events → Prop
  | done => True
  | node _ inner rest | hidden _ inner rest => inner.Remarked hooks ∧ rest.Remarked hooks
  | gap g remark said rest =>
    g.language = hooks.name ∧ g.Plain ∧ remark = hooks.inlineComment g.message ∧
      said.Remarked hooks ∧ rest.Remarked hooks
  | fault _ rest => rest.Remarked hooks

theorem Events.remarked_append (hooks : Hooks) (a b : Events) :
    (a ++ b).Remarked hooks ↔ a.Remarked hooks ∧ b.Remarked hooks := by
  induction a with
  | done => simp [Remarked]
  | node _ _ _ _ ih | hidden _ _ _ _ ih => simp [Remarked, ih, and_assoc]
  | gap _ _ _ _ _ ih => simp [Remarked, ih, and_assoc]
  | fault _ _ ih => simpa [Remarked] using ih

namespace Follows

variable {hooks : Hooks} {faults : Faults} {n : Node} {e : Events} {o x y z : Outline}

theorem remarked (h : Follows hooks faults n e o) : e.Remarked hooks := by
  induction h with
  | nothing | fault => trivial
  | idle => exact ⟨trivial, trivial⟩
  | gap hl hp => exact ⟨hl, hp, rfl, trivial, trivial⟩
  | node _ ih => exact ⟨ih, trivial⟩
  | within _ _ ih | alike _ _ ih | unordered _ ih => exact ih
  | beside _ _ ih ih' | before _ _ ih ih' => exact (Events.remarked_append ..).2 ⟨ih, ih'⟩
  | carried _ ih => exact ⟨⟨ih, trivial⟩, trivial⟩
  | detached _ _ ih => exact ⟨ih, trivial⟩

/-! ### Parts in other orders -/

theorem left (h : Follows hooks faults n e x) : Follows hooks faults n e (.beside x y) := by
  rw [← Events.append_done e]
  exact .beside h .nothing

theorem right (h : Follows hooks faults n e y) : Follows hooks faults n e (.beside x y) := by
  rw [← Events.done_append e]
  exact .beside .nothing h

end Follows

end SourcePrinter
