import SourcePrinter.Proofs.Depth

/-! Expressions in documents. Wherever the document of a tree keeps a span for an expression, the
expression is one of the tree, outside type references, and stands there with the document that it
has by itself. -/

namespace SourcePrinter

open Doc

/-! ### Own nodes -/

namespace Outline

theorem mem_own_node {n m : Node} {o : Outline} :
    m ∈ (node n o).own ↔ n.key.category ≠ .typeReference ∧ (m = n ∨ m ∈ o.own) := by
  rw [own]
  split <;> simp [*]

theorem own_typeForm (form : TypeForm) : form.outline.own = [] := by
  cases form with
  | named type =>
    cases type
    exact own_typeRefs _
  | predefined | unknown | range => rfl
  | pointer target | kindOf target | constant target => exact own_typeRef target
  | array element | sequence element => exact own_typeRef element
  | dictionary key value => simp [TypeForm.outline, own]
  | tuple members => exact own_typeRefs members
  | inlineBlock block =>
    cases block
    simp [TypeForm.outline, InlineBlock.outline, own]

end Outline

/-! ### Nodes with spans -/

namespace Doc

/-- Where the nodes `s` have no spans, the document has a node with one and with this body. -/
def Keeps : Doc → List NodeKey → NodeKey → Doc → Prop
  | node k inner, s, key, body => k ∉ s ∧ (key = k ∧ body = inner ∨ inner.Keeps s key body)
  | synthetic k inner, s, key, body => inner.Keeps (s.insert k) key body
  | append first second, s, key, body => first.Keeps s key body ∨ second.Keeps s key body
  | nested inner, s, key, body | aligned inner, s, key, body | inside _ inner, s, key, body
  | unsupported _ inner, s, key, body => inner.Keeps s key body
  | perScope inner, s, key, body => ∃ scope, (inner scope).Keeps s key body
  | empty, _, _, _ | text _, _, _, _ | newline, _, _, _ | lineStart, _, _, _ | typeGap, _, _, _
  | separator _, _, _, _ | malformed _, _, _, _ => False

variable {d body : Doc} {s : List NodeKey} {key : NodeKey}

theorem Keeps.not_mem (h : d.Keeps s key body) : key ∉ s := by
  induction d generalizing s with
  | node k inner ih =>
    obtain ⟨hk, ⟨rfl, -⟩ | hinner⟩ := h
    · exact hk
    · exact ih hinner
  | synthetic k inner ih => exact fun hs => ih h (List.mem_insert_of_mem hs)
  | append first second ih ih' => exact h.elim ih ih'
  | nested inner ih | aligned inner ih | inside _ inner ih | unsupported _ inner ih => exact ih h
  | perScope inner ih =>
    obtain ⟨scope, hinner⟩ := h
    exact ih scope hinner
  | empty | text | newline | lineStart | typeGap | separator | malformed => exact h.elim

theorem Wordy.not_keeps (h : d.Wordy) : ¬ d.Keeps s key body := by
  induction d with
  | append first second ih ih' => exact fun hd => hd.elim (ih h.1) (ih' h.2)
  | nested inner ih | aligned inner ih => exact ih h
  | empty | text | newline | lineStart | separator => exact id
  | typeGap | node | synthetic | inside | perScope | unsupported | malformed => exact h.elim

/-- Every expression with a span in the document is one of the outline and has its own document
there. -/
def Quotes (l : Language) (setting : Setting) (d : Doc) (o : Outline) : Prop :=
  ∀ s key body, key.category = .expression → d.Keeps s key body →
    ∃ e, .expression e ∈ o.own ∧ l.expressionDoc setting e = node key body

namespace Quotes

variable {l : Language} {setting : Setting} {a b d : Doc} {o x y : Outline}

theorem of_wordy (h : d.Wordy) : d.Quotes l setting o := fun _ _ _ _ hd => (h.not_keeps hd).elim

theorem mono (h : d.Quotes l setting x) (hxy : ∀ n ∈ x.own, n ∈ y.own) : d.Quotes l setting y := by
  intro s key body hkey hd
  obtain ⟨e, he, hdoc⟩ := h s key body hkey hd
  exact ⟨e, hxy _ he, hdoc⟩

theorem append (ha : a.Quotes l setting x) (hb : b.Quotes l setting y) :
    (a ++ b).Quotes l setting (.beside x y) := by
  rintro s key body hkey (hd | hd)
  · exact ha.mono (fun _ => List.mem_append_left _) s key body hkey hd
  · exact hb.mono (fun _ => List.mem_append_right _) s key body hkey hd

theorem before_words (h : d.Quotes l setting o) (hb : b.Wordy) : (d ++ b).Quotes l setting o := by
  rintro s key body hkey (hd | hd)
  · exact h s key body hkey hd
  · exact (hb.not_keeps hd).elim

theorem after_words (ha : a.Wordy) (h : d.Quotes l setting o) : (a ++ d).Quotes l setting o := by
  rintro s key body hkey (hd | hd)
  · exact (ha.not_keeps hd).elim
  · exact h s key body hkey hd

/-- What is no expression may have a span. -/
theorem enter (h : d.Quotes l setting o) {k : NodeKey}
    (hk : k.category ≠ .expression := by rintro ⟨⟩) : (Doc.node k d).Quotes l setting o := by
  rintro s key body hkey ⟨-, ⟨rfl, -⟩ | hd⟩
  · exact (hk hkey).elim
  · exact h s key body hkey hd

theorem node (h : d.Quotes l setting o) (n : Node)
    (hk : n.key.category ≠ .expression := by rintro ⟨⟩)
    (ht : n.key.category ≠ .typeReference := by rintro ⟨⟩) :
    (Doc.node n.key d).Quotes l setting (.node n o) :=
  (h.enter hk).mono fun _ hm => Outline.mem_own_node.2 ⟨ht, .inr hm⟩

end Quotes

end Doc

/-! ### Rules -/

/-- A context that quotes expressions in the parts of some size, and writes every expression as a
node. -/
structure Context.Quotes (c : Context) (l : Language) (setting : Setting) (k : Nat) : Prop where
  part : ∀ p : Part, p.outline.size ≤ k → (p.doc c).Quotes l setting p.outline
  hidden : ∀ {e s key body}, e.key ∈ s → ¬ (c.expression e).Keeps s key body

section

variable {l : Language} {setting : Setting} {c : Context} {k : Nat}

/-- The document of an expression is a node. -/
theorem Language.expressionDoc_eq (l : Language) (setting : Setting) (e : Expression) :
    l.expressionDoc setting e = l.expressionNode (l.context setting (e.size - 1)) e := by
  cases e
  rfl

/-- What is put together from parts that quote expressions quotes them. -/
theorem Composed.quotes {faults : Faults} {whole : Prop} {alt : Context} {n : Node} {d d' : Doc}
    {o : Outline} (h : Composed l.hooks faults whole c alt n d d' o) (hl : l.hooks.Wordy)
    (hc : c.Quotes l setting k) (ho : o.size ≤ k) : d.Quotes l setting o := by
  induction h with
  | words hd => exact .of_wordy hd
  | typeGap => exact fun _ _ _ _ hd => hd.elim
  | part p => exact hc.part p ho
  | beside _ _ ih ih' | before _ _ ih ih' =>
    rw [Outline.size] at ho
    exact .append (ih (by omega)) (ih' (by omega))
  | trim _ ih => exact fun s key body hkey hd => ih ho s key body hkey (.inl hd)
  | nested _ ih | aligned _ ih | inside _ ih | unordered _ ih => exact ih ho
  | perScope _ ih =>
    rintro s key body hkey ⟨scope, hd⟩
    exact ih scope ho s key body hkey hd
  | equal hxy _ ih => exact (ih (hxy.size ▸ ho)).mono fun n => (hxy.own n).1
  | within _ hm _ ih =>
    rw [Outline.size] at ho
    exact (ih (by omega)).mono fun n hn => Outline.mem_own_node.2 ⟨hm, .inr hn⟩
  | gap => exact fun s key body _ hd => ((hl.inlineComment _).not_keeps hd).elim
  | fault => exact fun _ _ _ _ hd => hd.elim
  | carried => exact fun s key body _ hd => (hc.hidden List.mem_insert_self hd).elim
  | @detached a a' b b' m o _ _ _ ih ih' =>
    rintro s key body hkey (hd | hd)
    · -- Only the condition that no tree has could be there, and it is without a span.
      obtain ⟨e, he, hdoc⟩ := ih (Nat.le_trans (Nat.le_add_left 1 _) ho) _ key body hkey hd
      obtain ⟨-, he | ⟨⟨⟩⟩⟩ := Outline.mem_own_node.1 he
      cases he
      rw [l.expressionDoc_eq] at hdoc
      exact absurd (Doc.node.inj hdoc).1 fun hk => hd.not_mem (hk ▸ List.mem_insert_self)
    · exact ih' ho _ key body hkey hd

namespace Language.Composes

variable {faults : Faults}

theorem guarded_quotes (h : l.Composes faults) (hl : c.Speaks l) (hc : c.Quotes l setting k)
    {condition : Option Expression} (hk : (expressionOutline? condition).size ≤ k) {d : Doc}
    {o : Outline} (hd : d.Quotes l setting o) :
    (l.guarded c condition d).Quotes l setting (.beside (expressionOutline? condition) o) := by
  cases condition with
  | none => exact hd.mono fun _ => List.mem_append_right _
  | some e =>
    have hstart : Composed l.hooks faults True c c (.expression e) _ _ _ := h.conditionStart e hl
    have hcondition : (lineStart ++ l.units.conditionStart c e ++ lineStart).Quotes l setting
        e.outline :=
      .before_words (.after_words wordy_lineStart (hstart.quotes h.wordy hc hk)) wordy_lineStart
    refine .before_words (.before_words (.before_words ?_ wordy_lineStart) (h.conditionEnd c))
      wordy_lineStart
    exact .append hcondition hd

section

variable (h : l.Composes faults) (hl : c.Speaks l) (hc : c.Quotes l setting k)

include h hl hc

theorem expressionNode_quotes {e : Expression}
    (he : l.expressionDoc setting e = l.expressionNode c e) (hk : e.outline.size ≤ k + 1) :
    (l.expressionNode c e).Quotes l setting e.outline := by
  have hrule : Composed l.hooks faults True c c (.expression e) _ _ _ := h.expression e hl
  have hown : ∀ {n}, n ∈ e.outline.own ↔ n = .expression e ∨ n ∈ e.form.outline.own := by
    intro n
    rw [e.outline_eq, Outline.mem_own_node, and_iff_right]
    rintro ⟨⟩
  rw [e.outline_eq, Outline.size] at hk
  rintro s key body hkey ⟨-, ⟨rfl, rfl⟩ | hd⟩
  · exact ⟨e, hown.2 (.inl rfl), he⟩
  · obtain ⟨x, hx, hdoc⟩ := hrule.quotes h.wordy hc (by omega) s key body hkey hd
    exact ⟨x, hown.2 (.inr hx), hdoc⟩

/-- There is nothing to quote in a type reference, with any nullability. -/
theorem typeNode_quotes {t inForce : TypeRef} (ht : inForce.form = t.form)
    (hk : t.outline.size ≤ k + 1) : (l.typeNode c t inForce).Quotes l setting t.outline := by
  have hrule : Composed l.hooks faults False c c (.typeRef t) _ _ _ := h.typeRef inForce hl
  rw [t.outline_eq, Outline.size, Outline.size] at hk
  have hform : inForce.form.outline.size ≤ k := by
    rw [ht]
    omega
  refine (hrule.quotes h.wordy hc hform).enter.mono fun n hn => ?_
  rw [Outline.own_typeForm] at hn
  cases hn

/-- A rule quotes the expressions in the part that it writes. -/
theorem written_quotes
    (he : ∀ e : Expression, e.outline.size ≤ k + 1 →
      l.expressionDoc setting e = l.expressionNode c e) {d d' : Doc} {o : Outline}
    (hd : l.Written faults False c c d d' o) (hk : o.size ≤ k + 1) : d.Quotes l setting o := by
  cases hd with
  | expression e => exact h.expressionNode_quotes hl hc (he e hk) hk
  | typeRef ht => exact h.typeNode_quotes hl hc ht hk
  | @node n _ _ _ hn hrule =>
    rw [Outline.size] at hk
    exact (hrule.quotes h.wordy hc (by omega)).node n hn.ne_expression hn.ne_typeReference
  | @ended n _ _ _ hn hrule =>
    rw [Outline.size] at hk
    have hnode := (hrule.quotes h.wordy hc (by omega)).node n hn.ne_expression hn.ne_typeReference
    exact hnode.before_words wordy_lineStart
  | @guarded n _ _ _ condition _ hn hrule =>
    rw [Outline.size, Outline.size] at hk
    have hnode := (hrule.quotes h.wordy hc (by omega)).node n hn.ne_expression hn.ne_typeReference
    exact h.guarded_quotes hl hc (by omega) (hnode.before_words wordy_lineStart)

end

/-- A context quotes the expressions in the parts that it reaches. -/
theorem context_quotes (h : l.Composes faults) (setting : Setting) (k : Nat) :
    (l.context setting k).Quotes l setting k := by
  induction k with
  | zero => exact ⟨fun p hk => absurd hk (Nat.not_le_of_gt p.size_pos), fun _ hd => hd⟩
  | succ k ih =>
    refine ⟨fun p hk => ?_, fun hs hd => hd.1 hs⟩
    rw [l.doc_context_succ]
    have hspeaks := l.context_speaks setting k
    refine h.written_quotes hspeaks ih (fun e hk => ?_) (h.written hspeaks False.elim) hk
    exact h.doc_context setting (.expression e) (Nat.le_of_eq e.size_outline) hk

end Language.Composes

end

end SourcePrinter
