import Mathlib.Data.String.Basic
import SourcePrinter.Proofs.Alone
import SourcePrinter.Proofs.OneLine.Dialect
import SourcePrinter.Proofs.Places
import SourcePrinter.Proofs.Quotes

/-! Expressions stand alone: in the rendering of a return statement in C# or Swift, in one line, the
span of every expression selects the text that the expression is rendered to by itself. -/

namespace SourcePrinter

open Doc

/-! ### Selections -/

/-- The span selects a part of a text: it counts the bytes before the part, and those up to its
end. -/
def Span.Selects (s : Span) (text part : String) : Prop :=
  ∃ before after, text = before ++ part ++ after ∧ s.start.offset = before.utf8ByteSize ∧
    s.stop.offset = (before ++ part).utf8ByteSize

/-- What a span selects is the slice of the text between its offsets. -/
theorem Span.Selects.extract_eq {s : Span} {text part : String} (h : s.Selects text part) :
    String.Pos.Raw.extract text ⟨s.start.offset⟩ ⟨s.stop.offset⟩ = part := by
  obtain ⟨before, after, rfl, hstart, hstop⟩ := h
  have hslice := String.extract_of_valid before.toList part.toList after.toList
  rw [← String.utf8Len_append, ← String.toList_append, ← String.toList_append,
    String.utf8Len_toList, String.utf8Len_toList, String.ofList_toList, String.ofList_toList]
    at hslice
  rwa [hstart, hstop]

/-! ### Visits among moves -/

/-- Moves that enter and leave no level stay on theirs. -/
theorem level_perform {options : Options} {moves : List Move} {w : Writer}
    (h : ∀ move ∈ moves, move ≠ .indent ∧ move ≠ .dedent) :
    (perform options moves w).level = w.level := by
  induction moves generalizing w with
  | nil => rfl
  | cons move more ih =>
    obtain ⟨⟨hi, hd⟩, hmore⟩ := List.forall_mem_cons.1 h
    rw [perform_cons, ih hmore, Move.level_apply options w hi hd]

/-- Where a visit of a run of a document stands: between the moves before it and those after it, as
a run of its node. -/
structure Visited.Stands (options : Options) (v : Visited) (d : Doc) (p : Pass) (body : Doc)
    (scope : Option TypeScope) (before after : List Move) : Prop where
  keeps : d.Keeps p.synthetic v.key body
  moves : d.moves p.scope = before ++ (body.moves scope ++ after)
  before : v.before.bare = perform options before p.writer.bare
  runs : ∃ column r f s, Runs options (node v.key body) column r f s ∧ r.writer = v.before ∧
    s.writer = v.left.writer

namespace Visited.Stands

variable {options : Options} {v : Visited} {d d' body : Doc} {p p' : Pass}
variable {scope : Option TypeScope} {before after x y : List Move}

/-- A visit in a part of a document stands in the document, with more moves around it. -/
theorem around (h : v.Stands options d p body scope before after)
    (hk : d'.Keeps p'.synthetic v.key body)
    (hm : d'.moves p'.scope = x ++ (d.moves p.scope ++ y))
    (hw : p.writer.bare = perform options x p'.writer.bare) :
    v.Stands options d' p' body scope (x ++ before) (after ++ y) where
  keeps := hk
  moves := by
    rw [hm, h.moves]
    simp only [List.append_assoc]
  before := by rw [h.before, hw, perform_append]
  runs := h.runs

/-- More of a document around it may add no moves. -/
theorem same (h : v.Stands options d p body scope before after)
    (hk : d'.Keeps p'.synthetic v.key body) (hm : d'.moves p'.scope = d.moves p.scope)
    (hw : p.writer.bare = p'.writer.bare) : v.Stands options d' p' body scope before after :=
  ⟨hk, hm.trans h.moves, by rw [h.before, hw], h.runs⟩

theorem unbroken (h : v.Stands options d p body scope before after)
    (hu : Unbroken options (d.moves p.scope) p.writer.bare) :
    Unbroken options (body.moves scope) v.before.bare := by
  rw [h.moves] at hu
  obtain ⟨-, hafter⟩ := unbroken_append.1 hu
  rw [← h.before] at hafter
  exact (unbroken_append.1 hafter).1

theorem level (h : v.Stands options d p body scope before after)
    (hd : ∀ move ∈ d.moves p.scope, move ≠ .indent ∧ move ≠ .dedent) :
    v.before.level = p.writer.level := by
  rw [h.moves] at hd
  show v.before.bare.level = p.writer.bare.level
  rw [h.before, level_perform (List.forall_mem_append.1 hd).1]

end Visited.Stands

namespace Doc

variable {options : Options} {d : Doc} {column : Nat} {p q : Pass} {f : Forest Visited}

/-- Every visit of a run that breaks no line stands among the moves of its document. -/
theorem Runs.stands (h : Runs options d column p f q)
    (hu : Unbroken options (d.moves p.scope) p.writer.bare) {v : Visited} (hv : v ∈ f.labels) :
    ∃ body scope before after, v.Stands options d p body scope before after := by
  -- On the run. The moves of a step that the visit is not part of stand before it or after it.
  induction h with
  | empty | text | newline | lineStart | typeGap | separator | unseen =>
    exact absurd hv List.not_mem_nil
  | @append first second column p q r f g h _ ih ih' =>
    obtain ⟨hfirst, hsecond⟩ := unbroken_append.1 hu
    rw [Forest.labels_append, List.mem_append] at hv
    rcases hv with hv | hv
    · obtain ⟨body, scope, before, after, hs⟩ := ih hfirst hv
      exact ⟨_, _, _, _, hs.around (x := []) (.inl hs.keeps) rfl rfl⟩
    · have hq := h.perform_eq hfirst
      obtain ⟨hscope, hsynthetic, -⟩ := h.surroundings
      rw [← hq, ← hscope] at hsecond
      obtain ⟨body, scope, before, after, hs⟩ := ih' hsecond hv
      refine ⟨_, _, _, _, hs.around (y := []) (.inr (hsynthetic ▸ hs.keeps)) ?_ hq⟩
      rw [hscope, List.append_nil]
      rfl
  | @nested body column p q f _ ih =>
    obtain ⟨hbody, -⟩ := unbroken_append.1 hu.2
    obtain ⟨body, scope, before, after, hs⟩ := ih hbody hv
    exact ⟨_, _, _, _, hs.around (x := [.indent]) (y := [.dedent]) hs.keeps rfl rfl⟩
  | @aligned body column p q f _ ih =>
    have hbegin : (p.mapWriter fun w => w.beginList.1).writer.bare = p.writer.bare :=
      p.writer.bare_beginList
    rw [hbegin] at ih
    obtain ⟨body, scope, before, after, hs⟩ := ih hu hv
    exact ⟨_, _, _, _, hs.same hs.keeps rfl hbegin⟩
  | @node key body column p q f hr hk h ih =>
    simp only [Forest.labels, List.append_nil, List.mem_cons] at hv
    rcases hv with rfl | hv
    · refine ⟨body, p.scope, [], [], ⟨hk, .inl ⟨rfl, rfl⟩⟩, (List.append_nil _).symm, rfl, ?_⟩
      exact ⟨_, _, _, _, .node hr hk h, rfl, rfl⟩
    · obtain ⟨inner, scope, before, after, hs⟩ := ih hu hv
      exact ⟨_, _, _, _, hs.same ⟨hk, .inr hs.keeps⟩ rfl rfl⟩
  | @synthetic key body column p q f _ ih =>
    have hscope := p.scope_markSynthetic key
    have hwriter := p.writer_markSynthetic key
    rw [hscope, hwriter] at ih
    obtain ⟨inner, scope, before, after, hs⟩ := ih hu hv
    have hkeeps := hs.keeps
    rw [Pass.synthetic_markSynthetic_insert] at hkeeps
    refine ⟨_, _, _, _, hs.same hkeeps ?_ (congrArg Writer.bare hwriter)⟩
    rw [hscope]
    rfl
  | inside _ ih =>
    obtain ⟨inner, scope, before, after, hs⟩ := ih hu hv
    exact ⟨_, _, _, _, hs.same hs.keeps rfl rfl⟩
  | @perScope inner column p q f _ ih =>
    obtain ⟨body, scope, before, after, hs⟩ := ih hu hv
    exact ⟨_, _, _, _, hs.same ⟨p.scope, hs.keeps⟩ rfl rfl⟩
  | @unsupported gap remark column p q f _ _ ih =>
    obtain ⟨body, scope, before, after, hs⟩ := ih hu.2 hv
    exact ⟨_, _, _, _, hs.around (x := [.gap gap]) (y := []) hs.keeps
      (congrArg (Move.gap gap :: ·) (List.append_nil _).symm) rfl⟩

/-- What stands in a document in one line is in one line. -/
theorem InLine.of_keeps {body : Doc} {s : List NodeKey} {key : NodeKey} (hd : d.InLine)
    (h : d.Keeps s key body) : body.InLine := by
  induction d generalizing s with
  | node k inner ih =>
    obtain ⟨-, ⟨-, rfl⟩ | h⟩ := h
    · exact hd
    · exact ih hd h
  | append first second ih ih' => exact h.elim (ih hd.1) (ih' hd.2)
  | aligned inner ih | synthetic k inner ih | unsupported gap inner ih => exact ih hd h
  | nested | inside | perScope => exact hd.elim
  | empty | text | newline | lineStart | typeGap | separator | malformed => exact h.elim

end Doc

/-- In a line at the margin, a visit selects what its node is rendered to by itself. -/
theorem Visited.Stands.selects {options : Options} {v : Visited} {d body : Doc} {p : Pass}
    {scope : Option TypeScope} {before after : List Move} {w : Writer} {a b c : List Char}
    (h : v.Stands options d p body scope before after)
    (hu : Unbroken options (d.moves p.scope) p.writer.bare) (hbody : body.InLine)
    (hlevel : v.before.level = 0)
    (ho : v.Occurs (.new options.indentation) a b c w) :
    ∃ alone, (node v.key body).render options = .ok alone ∧ v.span.Selects w.text alone.text := by
  have hdue : v.before.due = [] := Writer.due_of_margin hlevel
  obtain ⟨column, r, f, s, hruns, hr, hs⟩ := h.runs
  have hunbroken : Unbroken options ((node v.key body).moves none) r.writer.bare := by
    have hmoves := h.unbroken hu
    rw [hbody.moves_eq] at hmoves
    rw [hr]
    exact hmoves
  have hrdue : r.writer.due = [] := by rw [hr, hdue]
  have hi : r.writer.indentation = options.indentation := by
    rw [hr]
    exact ho.before.indentation
  obtain ⟨alone, halone, htext⟩ := hruns.render_alone hbody hrdue hi hunbroken
  have hown : b = alone.text.toList := by
    have hadds := hruns.adds_chars hbody hrdue hunbroken
    rw [hr, hs, ho.made.grows.text, ← htext] at hadds
    exact List.append_cancel_left hadds
  -- Nothing is due, so a start behind what is due is the place where the node was entered.
  have hstart : v.span.start.offset = Position.bytes a := by
    rcases ho.made.start_cases with hs | ⟨hs, -⟩
    · rw [hs, ho.before_eq]
      rfl
    · rw [hs, ho.pending_eq, hdue, List.append_nil]
      rfl
  have hstop : v.span.stop.offset = Position.bytes (a ++ b) := by
    rw [ho.stop_eq]
    rfl
  refine ⟨alone, halone, String.ofList a, String.ofList c, ?_, ?_, ?_⟩
  · rw [← String.toList_inj, ho.text_eq, hown]
    simp
  · rw [hstart, ← Position.bytes_toList, String.toList_ofList]
  · rw [hstop, hown, ← Position.bytes_toList, String.toList_append, String.toList_ofList]

/-! ### Own nodes -/

namespace Outline

variable {n m : Node} {o : Outline}

theorem key_mem_of_mem_own (h : n ∈ o.own) : n.key ∈ o.keys := by
  induction o with
  | nothing | carried => cases h
  | node top parts ih =>
    obtain ⟨-, rfl | h⟩ := mem_own_node.1 h
    · exact List.mem_cons_self
    · exact List.mem_cons_of_mem _ (ih h)
  | beside first second ih ih' | before first rest ih ih' =>
    exact List.mem_append.2 ((List.mem_append.1 h).imp ih ih')

/-- A node with one place is told by its key. -/
theorem Single.eq_of_key (h : o.Single n.key) (hn : n ∈ o.own) (hm : m ∈ o.own)
    (hkey : m.key = n.key) : m = n := by
  induction o with
  | nothing | carried => cases hn
  | node top parts ih =>
    simp only [Single, keys, List.count_cons] at h ih
    have htop : top.key = n.key → n.key ∉ parts.keys := by
      intro he hparts
      have := List.count_pos_iff.2 hparts
      simp only [he, BEq.rfl, if_true] at h
      omega
    -- With its one place at the top, the key is not below it.
    obtain ⟨-, rfl | hn'⟩ := mem_own_node.1 hn <;> obtain ⟨-, rfl | hm'⟩ := mem_own_node.1 hm
    · rfl
    · exact absurd (hkey ▸ key_mem_of_mem_own hm') (htop rfl)
    · exact absurd (key_mem_of_mem_own hn') (htop hkey)
    · exact ih (by omega) hn' hm'
  | beside x y ih ih' | before x y ih ih' =>
    simp only [Single, keys, List.count_append] at h ih ih'
    have apart : n.key ∈ x.keys → n.key ∉ y.keys := by
      intro hx hy
      have := two_le_count hx hy
      omega
    rcases List.mem_append.1 hn with hn | hn <;> rcases List.mem_append.1 hm with hm | hm
    · exact ih (by omega) hn hm
    · exact absurd (hkey ▸ key_mem_of_mem_own hm) (apart (key_mem_of_mem_own hn))
    · exact absurd (key_mem_of_mem_own hn) (apart (hkey ▸ key_mem_of_mem_own hm))
    · exact ih' (by omega) hn hm

end Outline

/-- If keys tell nodes apart, an expression with a span stands in a tree with its own document. -/
theorem Language.Composes.expressionDoc_of_keeps {l : Language} {faults : Faults}
    (h : l.Composes faults) {setting : Setting} {e x : Expression} {s : List NodeKey} {body : Doc}
    (hd : (l.expressionDoc setting e).Keeps s x.key body) (hx : .expression x ∈ e.outline.own)
    (hkeys : e.outline.Distinct) : l.expressionDoc setting x = node x.key body := by
  have hquotes : (l.expressionDoc setting e).Quotes l setting e.outline :=
    (h.context_quotes setting e.size).part (.expression e) (Nat.le_of_eq e.size_outline)
  obtain ⟨y, hy, hdoc⟩ := hquotes s x.key body rfl hd
  have hkey : y.key = x.key := by
    rw [l.expressionDoc_eq] at hdoc
    exact (Doc.node.inj hdoc).1
  have hsingle : e.outline.Single x.key := hkeys x.key (by rintro ⟨⟩)
  obtain rfl : y = x := Node.expression.inj (hsingle.eq_of_key (n := .expression x) hx hy hkey)
  exact hdoc

/-! ### Return statements -/

namespace Dialect

variable (d : Dialect) {setting : Setting} {id : NodeId} {e : Expression}

/-- The spans of expressions in a return statement are those in what is returned. -/
theorem returning_keeps {s : List NodeKey} {key : NodeKey} {body : Doc}
    (h : (d.language.statementDoc setting ⟨id, .returning (some e)⟩).Keeps s key body)
    (hkey : key.category = .expression) :
    (d.language.expressionDoc setting e).Keeps s key body := by
  rcases h with ⟨-, ⟨rfl, -⟩ | h⟩ | h
  · cases hkey
  · cases d with
    | csharp =>
      rcases h with (h | h | h) | h | h
      · exact h.elim
      · exact h.elim
      · exact h
      · exact h.elim
      · exact h.elim
    | swift =>
      rcases h with h | h | h
      · exact h.elim
      · exact h.elim
      · exact h
  · exact h.elim

/-- A return statement in one line stays on its level. -/
theorem returning_level (he : e.outline.InLine) : ∀ move ∈
    (d.language.statementDoc setting ⟨id, .returning (some e)⟩).moves none,
    move ≠ .indent ∧ move ≠ .dedent := by
  have hflat : ∀ move ∈ (d.language.expressionDoc setting e).moves none,
      move ≠ .indent ∧ move ≠ .dedent := by
    intro move hmove
    have h := (d.expressionDoc_inLine setting he).flat none move hmove
    constructor <;> rintro rfl <;> exact h
  cases d with
  | csharp =>
    have hdoc : Language.csharp.statementDoc setting ⟨id, .returning (some e)⟩ =
        node ⟨.statement, id⟩ (text "return" ++
          (text " " ++ Language.csharp.expressionDoc setting e) ++ line ";") ++ lineStart := rfl
    simpa [language, hdoc, moves, line, or_imp, forall_and] using hflat
  | swift lowercaseCases =>
    have hdoc : (Language.swift lowercaseCases).statementDoc setting ⟨id, .returning (some e)⟩ =
        node ⟨.statement, id⟩ (text "return" ++
          (text " " ++ (Language.swift lowercaseCases).expressionDoc setting e)) ++
          lineStart := rfl
    simpa [language, hdoc, moves, or_imp, forall_and] using hflat

end Dialect

/-- In the rendering of a return statement in C# or Swift, the span of every expression outside type
references selects the text that the expression is rendered to by itself. There is no line feed in
names and raw texts and no anonymous method, keys tell the nodes apart, and no list wraps. -/
theorem Dialect.expressions_stand_alone (d : Dialect) {options : Options} {id : NodeId}
    {e : Expression} {out : Rendering}
    (h : (Request.statement ⟨id, .returning (some e)⟩ none).render d.language options = .ok out)
    (hline : e.outline.InLine) (hkeys : e.outline.Distinct)
    (hu : (Request.statement ⟨id, .returning (some e)⟩ none).Unbroken d.language options) :
    ∀ x, .expression x ∈ e.outline.own → ∀ span, out.spans.get? x.key = some span →
      ∃ alone, (Request.expressionText x).render d.language options = .ok alone ∧
        span.Selects out.text alone.text := by
  intro x hx span hspan
  obtain ⟨f, q, hruns, rfl⟩ := runs_of_render h
  have hspan : q.spans.get? x.key = some span := hspan
  rw [hruns.spans_eq] at hspan
  obtain ⟨v, hv, hkey, rfl⟩ := (Forest.get?_record hspan).resolve_right (by simp [Pass.initial])
  obtain ⟨a, b, c, ho⟩ := hruns.occurs hv
  obtain ⟨body, scope, before, after, hs⟩ := hruns.stands hu hv
  have hvkey : v.key.category = .expression := hkey ▸ rfl
  have hkeeps := d.returning_keeps hs.keeps hvkey
  have hbody : body.InLine := (d.expressionDoc_inLine _ hline).of_keeps hkeeps
  have hlevel : v.before.level = 0 := hs.level (d.returning_level hline)
  obtain ⟨alone, halone, hselects⟩ := hs.selects hu hbody hlevel ho
  have hdoc := d.composes.expressionDoc_of_keeps (hkey ▸ hkeeps) hx hkeys
  rw [hkey, ← hdoc] at halone
  exact ⟨alone, halone, hselects⟩

/-- A sum of a call with a name that needs two bytes and a text with a line feed. -/
def Expression.greeting : Expression :=
  let call : MethodCall := ⟨none, "salué", [.ofForm 1 (.predefined .int32)],
    [⟨⟨3, .localVariable "à"⟩, none, .value⟩, ⟨⟨4, .boolean true⟩, some "loud", .value⟩], false⟩
  ⟨1, .binary ⟨2, .call call⟩ .add ⟨5, .string "!\n"⟩⟩

theorem Expression.greeting_stands_alone : ∃ out span alone,
    (Request.statement ⟨1, .returning (some greeting)⟩ none).render .csharp .initial = .ok out ∧
    greeting.outline.InLine ∧ greeting.outline.Distinct ∧
    (Request.statement ⟨1, .returning (some greeting)⟩ none).Unbroken .csharp .initial ∧
    out.spans.get? ⟨.expression, 4⟩ = some span ∧
    (Request.expressionText ⟨4, .boolean true⟩).render .csharp .initial = .ok alone ∧
    span.Selects out.text alone.text := by
  obtain ⟨out, span, hout, hspan⟩ : ∃ out span,
      (Request.statement ⟨1, .returning (some greeting)⟩ none).render .csharp .initial = .ok out ∧
      out.spans.get? (Expression.key ⟨4, .boolean true⟩) = some span := ⟨_, _, rfl, rfl⟩
  have hline : greeting.outline.InLine := by decide
  have hkeys : greeting.outline.Distinct := Outline.distinct_of_nodup (by decide)
  have hunbroken :
      (Request.statement ⟨1, .returning (some greeting)⟩ none).Unbroken .csharp .initial := by
    unfold Request.Unbroken
    decide
  have hown : .expression ⟨4, .boolean true⟩ ∈ greeting.outline.own :=
    .tail _ (.tail _ (.tail _ (.head _)))
  obtain ⟨alone, halone, hselects⟩ :=
    Dialect.expressions_stand_alone .csharp hout hline hkeys hunbroken _ hown span hspan
  exact ⟨out, span, alone, hout, hline, hkeys, hunbroken, hspan, halone, hselects⟩

end SourcePrinter
