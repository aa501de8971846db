import SourcePrinter.Proofs.Ink

/-! Readings of a text from left to right: of its brackets, with those that are open at a place, and
of its number signs, which may begin a directive. A document is closed if a reading goes on after it
as if nothing had been there. What is put together from closed documents and pairs of brackets is
closed, and so is read what a run of it adds to a text. -/

namespace SourcePrinter

open Doc

/-! ### Texts -/

def isOpening (c : Char) : Bool := c == '(' || c == '[' || c == '\x7b'

def isClosing (c : Char) : Bool := c == ')' || c == ']' || c == '\x7d'

/-- The second bracket closes the first. -/
def closes : Char → Char → Bool
  | '(', ')' | '[', ']' | '\x7b', '\x7d' => true
  | _, _ => false

/-- Reads the brackets of a text, given those that are open, the innermost first. Each closing
bracket has to close the innermost open one. -/
def nesting : List Char → List Char → Option (List Char)
  | opened, [] => some opened
  | opened, c :: rest =>
    if isOpening c then nesting (c :: opened) rest
    else if isClosing c then
      match opened with
      | [] => none
      | o :: more => if closes o c then nesting more rest else none
    else nesting opened rest

example : nesting [] "a(b[c], d) \x7b \x7d".toList = some [] := by decide

example : nesting [] "(a]".toList = none := by decide

/-- No number sign of a text begins a directive, whatever follows the text. -/
def calm : List Char → Bool
  | [] => true
  | c :: rest =>
    (c != '#' || rest.head?.any fun next => next != 'i' && next != 'e') && calm rest

theorem nesting_append (opened s t : List Char) :
    nesting opened (s ++ t) = (nesting opened s).bind fun opened => nesting opened t := by
  induction s generalizing opened with
  | nil => rfl
  | cons c rest ih =>
    simp only [List.cons_append, nesting]
    split
    · exact ih _
    · split
      · cases opened with
        | nil => rfl
        | cons o more =>
          simp only
          split
          · exact ih more
          · rfl
      · exact ih opened

theorem calm_append {s t : List Char} (hs : calm s = true) (ht : calm t = true) :
    calm (s ++ t) = true := by
  induction s with
  | nil => exact ht
  | cons c rest ih =>
    simp only [calm, Bool.and_eq_true, List.cons_append] at hs ⊢
    refine ⟨?_, ih hs.2⟩
    cases rest with
    | nil => exact Bool.or_eq_true_iff.2 (.inl (by simpa using hs.1))
    | cons next more => exact hs.1

/-- Brackets are ink. -/
theorem nesting_ink (opened text : List Char) :
    nesting opened (text.filter isInk) = nesting opened text := by
  induction text generalizing opened with
  | nil => rfl
  | cons c rest ih =>
    by_cases hc : isInk c = true
    · simp only [List.filter_cons_of_pos hc, nesting, ih]
    · rw [List.filter_cons_of_neg hc, ih]
      simp only [isInk, Bool.and_eq_true, bne_iff_ne, not_and_or, not_not] at hc
      rcases hc with (rfl | rfl) | rfl <;> rfl

/-! ### Readings -/

/-- What a reading looks for. -/
inductive Reading where
  | brackets
  | signs

namespace Reading

/-- The reading passes over the character. -/
def overlooks : Reading → Char → Bool
  | brackets, c => !isOpening c && !isClosing c
  | signs, c => c != '#'

/-- The reading passes over the text. -/
def Overlooks (m : Reading) (s : String) : Prop := ∀ c ∈ s.toList, m.overlooks c = true

/-- Reads a text, given the brackets that are open. -/
def read : Reading → List Char → List Char → Option (List Char)
  | brackets, opened, s => nesting opened s
  | signs, opened, s => if calm s then some opened else none

/-- What is open after an opening bracket. -/
def enter : Reading → Char → List Char → List Char
  | brackets, c, opened => c :: opened
  | signs, _, opened => opened

/-- No reading looks for the character. -/
def isIdle (c : Char) : Bool := !isOpening c && !isClosing c && c != '#'

variable (m : Reading) (opened : List Char)

@[simp] theorem read_nil : m.read opened [] = some opened := by cases m <;> rfl

theorem read_append {s t next last : List Char} (hs : m.read opened s = some next)
    (ht : m.read next t = some last) : m.read opened (s ++ t) = some last := by
  cases m with
  | brackets =>
    have hs : nesting opened s = some next := hs
    show nesting opened (s ++ t) = some last
    rw [nesting_append, hs]
    exact ht
  | signs =>
    simp only [read, Option.ite_none_right_eq_some, Option.some.injEq] at hs ht ⊢
    exact ⟨calm_append hs.1 ht.1, hs.2.trans ht.2⟩

@[simp] theorem read_cons_of_idle {c : Char} (hc : isIdle c = true) (rest : List Char) :
    m.read opened (c :: rest) = m.read opened rest := by
  simp only [isIdle, Bool.and_eq_true, Bool.not_eq_true', bne_iff_ne] at hc
  cases m with
  | brackets => simp [read, nesting, hc]
  | signs => simp [read, calm, hc]

/-- A reading goes on after a text that it passes over. -/
theorem read_append_of_overlooks {text : List Char} (h : ∀ c ∈ text, m.overlooks c = true)
    (rest : List Char) : m.read opened (text ++ rest) = m.read opened rest := by
  induction text with
  | nil => rfl
  | cons c more ih =>
    have hc := h c List.mem_cons_self
    have hmore := ih fun d hd => h d (List.mem_cons_of_mem _ hd)
    cases m with
    | brackets =>
      simp only [overlooks, Bool.and_eq_true, Bool.not_eq_true'] at hc
      simpa [read, nesting, hc] using hmore
    | signs =>
      simp only [overlooks, bne_iff_ne] at hc
      simpa [read, calm, hc] using hmore

theorem read_of_overlooks {text : List Char} (h : ∀ c ∈ text, m.overlooks c = true) :
    m.read opened text = some opened := by
  rw [← List.append_nil text, m.read_append_of_overlooks opened h, read_nil]

theorem Overlooks.read_append {m : Reading} {s : String} (h : m.Overlooks s)
    (opened rest : List Char) :
    m.read opened (s.toList.filter isInk ++ rest) = m.read opened rest :=
  m.read_append_of_overlooks opened (fun c hc => h c (List.mem_filter.1 hc).1) rest

section

variable (rest : List Char)

/-- A number sign before another character begins no directive. -/
@[simp] theorem read_sign {next : Char} (hi : next ≠ 'i') (he : next ≠ 'e') :
    m.read opened ('#' :: next :: rest) = m.read opened (next :: rest) := by
  cases m with
  | brackets => rfl
  | signs => simp [read, calm, hi, he]

@[simp] theorem read_openParen :
    m.read opened ('(' :: rest) = m.read (m.enter '(' opened) rest := by
  cases m <;> simp [read, nesting, calm, enter, isOpening]

@[simp] theorem read_openBracket :
    m.read opened ('[' :: rest) = m.read (m.enter '[' opened) rest := by
  cases m <;> simp [read, nesting, calm, enter, isOpening]

@[simp] theorem read_openBrace :
    m.read opened ('\x7b' :: rest) = m.read (m.enter '\x7b' opened) rest := by
  cases m <;> simp [read, nesting, calm, enter, isOpening]

@[simp] theorem read_closeParen :
    m.read (m.enter '(' opened) (')' :: rest) = m.read opened rest := by
  cases m <;> simp [read, nesting, calm, enter, isOpening, isClosing, closes]

@[simp] theorem read_closeBracket :
    m.read (m.enter '[' opened) (']' :: rest) = m.read opened rest := by
  cases m <;> simp [read, nesting, calm, enter, isOpening, isClosing, closes]

@[simp] theorem read_closeBrace :
    m.read (m.enter '\x7b' opened) ('\x7d' :: rest) = m.read opened rest := by
  cases m <;> simp [read, nesting, calm, enter, isOpening, isClosing, closes]

end

theorem Overlooks.append {m : Reading} {s t : String} (hs : m.Overlooks s) (ht : m.Overlooks t) :
    m.Overlooks (s ++ t) := by
  intro c hc
  rw [String.toList_append, List.mem_append] at hc
  exact hc.elim (hs c) (ht c)

theorem overlooks_of_idle {c : Char} (hc : isIdle c = true) : m.overlooks c = true := by
  simp only [isIdle, Bool.and_eq_true] at hc
  cases m with
  | brackets => exact Bool.and_eq_true_iff.2 hc.1
  | signs => exact hc.2

/-- A text in idle characters. A literal is one of the kind `String.ofList`. -/
theorem overlooks_of_chars {chars : List Char} (h : chars.all isIdle = true) :
    m.Overlooks (String.ofList chars) := by
  intro c hc
  rw [String.toList_ofList] at hc
  exact m.overlooks_of_idle (List.all_eq_true.1 h c hc)

end Reading

/-! ### Documents -/

namespace Doc

/-- Reads what a document writes in a type, or outside any. -/
def read (m : Reading) : Doc → Option TypeScope → List Char → Option (List Char)
  | text s, _, opened | separator s, _, opened => m.read opened (SourcePrinter.ink s)
  | append first second, scope, opened =>
    (first.read m scope opened).bind fun opened => second.read m scope opened
  | nested body, scope, opened | aligned body, scope, opened | node _ body, scope, opened
  | synthetic _ body, scope, opened | unsupported _ body, scope, opened =>
    body.read m scope opened
  | inside inner body, _, opened => body.read m (some inner) opened
  | perScope body, scope, opened => (body scope).read m scope opened
  | empty, _, opened | newline, _, opened | lineStart, _, opened | typeGap, _, opened
  | malformed _, _, opened => some opened

/-- A reading goes on after the document as if nothing had been there. -/
abbrev Closed (m : Reading) (d : Doc) : Prop :=
  ∀ scope opened, d.read m scope opened = some opened

section

variable (m : Reading) (scope : Option TypeScope) (opened : List Char)

@[simp] theorem read_text (s : String) :
    (text s).read m scope opened = m.read opened (s.toList.filter isInk) := rfl

@[simp] theorem read_line (s : String) :
    (line s).read m scope opened = m.read opened (s.toList.filter isInk) :=
  Option.bind_fun_some _

@[simp] theorem read_append (first second : Doc) : (first ++ second).read m scope opened =
    (first.read m scope opened).bind fun opened => second.read m scope opened := rfl

@[simp] theorem read_nested (body : Doc) :
    (nested body).read m scope opened = body.read m scope opened := rfl

@[simp] theorem read_separator (s : String) :
    (separator s).read m scope opened = m.read opened (s.toList.filter isInk) := rfl

@[simp] theorem read_node (key : NodeKey) (body : Doc) :
    (node key body).read m scope opened = body.read m scope opened := rfl

@[simp] theorem read_synthetic (key : NodeKey) (body : Doc) :
    (synthetic key body).read m scope opened = body.read m scope opened := rfl

@[simp] theorem read_inside (inner : TypeScope) (body : Doc) :
    (inside inner body).read m scope opened = body.read m (some inner) opened := rfl

@[simp] theorem read_unsupported (gap : Gap) (remark : Doc) :
    (unsupported gap remark).read m scope opened = remark.read m scope opened := rfl

@[simp] theorem read_malformed (detail : String) :
    (malformed detail).read m scope opened = some opened := rfl

@[simp] theorem read_newline : newline.read m scope opened = some opened := rfl

@[simp] theorem read_lineStart : lineStart.read m scope opened = some opened := rfl

@[simp] theorem read_empty : empty.read m scope opened = some opened := rfl

@[simp] theorem read_perScope (body : Option TypeScope → Doc) :
    (perScope body).read m scope opened = (body scope).read m scope opened := rfl

end

namespace Closed

variable {m : Reading} {a b d : Doc} {α : Type}

theorem text {s : String} (h : m.Overlooks s) : (Doc.text s).Closed m := by
  intro scope opened
  exact m.read_of_overlooks opened fun c hc => h c (List.mem_filter.1 hc).1

theorem append (ha : a.Closed m) (hb : b.Closed m) : (a ++ b).Closed m := by
  intro scope opened
  rw [read_append, ha, Option.bind_some, hb]

theorem line {s : String} (h : m.Overlooks s) : (Doc.line s).Closed m :=
  .append (.text h) fun _ _ => rfl

/-- Words in idle characters. -/
theorem words {chars : List Char} (h : chars.all Reading.isIdle = true) :
    (Doc.text (String.ofList chars)).Closed m :=
  .text (m.overlooks_of_chars h)

theorem wordsLine {chars : List Char} (h : chars.all Reading.isIdle = true) :
    (Doc.line (String.ofList chars)).Closed m :=
  .line (m.overlooks_of_chars h)

theorem compositional (m : Reading) : Compositional (Closed m) where
  empty := fun _ _ => rfl
  append _ _ h h' := h.append h'

theorem when (h : d.Closed m) (condition : Bool) : (Doc.when condition d).Closed m :=
  (compositional m).when h condition

theorem whenSome {value : Option α} {doc : α → Doc} (h : ∀ a ∈ value, (doc a).Closed m) :
    (Doc.whenSome value doc).Closed m :=
  (compositional m).whenSome h

theorem concat {items : List α} {doc : α → Doc} (h : ∀ a ∈ items, (doc a).Closed m) :
    (Doc.concat (items.map doc)).Closed m :=
  (compositional m).concat (List.forall_mem_map.2 h)

theorem separated {s : String} (hs : m.Overlooks s) {items : List α} {doc : α → Doc}
    (h : ∀ a ∈ items, (doc a).Closed m) : (Doc.separated s (items.map doc)).Closed m :=
  (compositional m).separated (fun _ h => h) (Closed.text hs) (List.forall_mem_map.2 h)

theorem commaList {items : List α} {doc : α → Doc} (h : ∀ a ∈ items, (doc a).Closed m) :
    (Doc.commaList (items.map doc)).Closed m :=
  .separated (m.overlooks_of_chars rfl) h

end Closed

/-! ### Runs -/

variable {options : Options} {d : Doc} {column : Nat} {p q : Pass} {f : Forest Visited}
variable {m : Reading}

/-- The ink of a document reads as the document. -/
theorem read_ink {scope : Option TypeScope} {opened next : List Char}
    (h : d.read m scope opened = some next) : m.read opened (d.ink scope) = some next := by
  induction d generalizing scope opened next with
  | text | separator => exact h
  | append first second ih ih' =>
    obtain ⟨middle, hfirst, hsecond⟩ := Option.bind_eq_some_iff.1 h
    exact m.read_append opened (ih hfirst) (ih' hsecond)
  | nested body ih | aligned body ih | node _ body ih | synthetic _ body ih
  | unsupported _ body ih => exact ih h
  | inside inner body ih => exact ih h
  | perScope body ih => exact ih scope h
  | empty | newline | lineStart | typeGap | malformed => exact (m.read_nil opened).trans h

end Doc

end SourcePrinter
