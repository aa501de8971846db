import SourcePrinter.Proofs.Descent

/-! How a rule puts the document of a node together: words, layout, and the documents of the parts
below the node, each asked of the context. `Composed` says this of the documents that one rule gives
in two contexts which differ in the documents of the parts only, and says which outline the parts
fill. Whatever is kept by putting documents together is proved from it without a look at the
rules. -/

namespace SourcePrinter

open Doc

/-! ### Words -/

/-- Not a space, a tab or a line feed. -/
def isInk (c : Char) : Bool := c != ' ' && c != '\t' && c != '\n'

/-- A separator, which loses only spaces, tabs and line feeds where it breaks the line. -/
def Separates (s : String) : Prop :=
  s ≠ "" ∧ (trimEnd s.toList).filter isInk = s.toList.filter isInk

instance (s : String) : Decidable (Separates s) :=
  inferInstanceAs (Decidable (_ ∧ _))

/-- A document of text and layout, with separators that lose no ink. -/
def Doc.Wordy : Doc → Prop
  | .empty | .text _ | .newline | .lineStart => True
  | .separator s => Separates s
  | .append first second => first.Wordy ∧ second.Wordy
  | .nested body | .aligned body => body.Wordy
  | _ => False

namespace Doc

theorem Wordy.textual {d : Doc} (h : d.Wordy) : d.Textual := by
  induction d with
  | append first second ih ih' => exact ⟨ih h.1, ih' h.2⟩
  | nested body ih | aligned body ih => exact ih h
  | empty | text | newline | lineStart | separator => trivial
  | typeGap | node | synthetic | inside | perScope | unsupported | malformed => exact h.elim

theorem Wordy.append {a b : Doc} (h : a.Wordy) (h' : b.Wordy) : (a ++ b).Wordy := ⟨h, h'⟩

theorem wordy_text (s : String) : (text s).Wordy := trivial

theorem wordy_newline : newline.Wordy := trivial

theorem wordy_lineStart : lineStart.Wordy := trivial

theorem wordy_line (s : String) : (line s).Wordy := ⟨trivial, trivial⟩

theorem wordy_compositional : Compositional Wordy where
  empty := trivial
  append _ _ h h' := h.append h'

theorem wordy_when {d : Doc} (h : d.Wordy) (condition : Bool) : (when condition d).Wordy :=
  wordy_compositional.when h condition

theorem wordy_whenSome {α : Type} {doc : α → Doc} (h : ∀ a, (doc a).Wordy) (value : Option α) :
    (whenSome value doc).Wordy :=
  wordy_compositional.whenSome fun a _ => h a

theorem wordy_concat {α : Type} {doc : α → Doc} (h : ∀ a, (doc a).Wordy) (items : List α) :
    (concat (items.map doc)).Wordy :=
  wordy_compositional.concat (List.forall_mem_map.2 fun a _ => h a)

theorem wordy_separated {α : Type} {s : String} (hs : Separates s) {doc : α → Doc}
    (h : ∀ a, (doc a).Wordy) (items : List α) : (separated s (items.map doc)).Wordy :=
  wordy_compositional.separated (fun _ h => h) hs (List.forall_mem_map.2 fun a _ => h a)

end Doc

/-- The hooks write words only. -/
structure Hooks.Wordy (h : Hooks) : Prop where
  lineComment : ∀ s, (h.lineComment s).Wordy
  inlineComment : ∀ s, (h.inlineComment s).Wordy
  importing : ∀ c i, (h.importing c i).Wordy

theorem Hooks.Wordy.textual {h : Hooks} (hw : h.Wordy) : h.Textual where
  lineComment s := (hw.lineComment s).textual
  inlineComment s := (hw.inlineComment s).textual
  importing c i := (hw.importing c i).textual

/-! ### Parts -/

/-- A part of a node, as a rule asks its context for it. -/
inductive Part where
  | expression (e : Expression)
  | typeRef (t : TypeRef)
  | typeRefAs (k : Nullability) (t : TypeRef)
  | parameter (p : Parameter)
  | statement (s : Statement)
  | body (s : Statement)
  | member (m : Member)
  | definition (t : TypeDefinition)

namespace Part

/-- The document that a context has for a part. -/
def doc (c : Context) : Part → Doc
  | expression e => c.expression e
  | typeRef t => c.typeRef t
  | typeRefAs k t => c.typeRefAs k t
  | parameter p => c.parameter p
  | statement s => c.statement s
  | body s => c.body s
  | member m => c.member m
  | definition t => c.typeDefinition t

def outline : Part → Outline
  | expression e => e.outline
  | typeRef t | typeRefAs _ t => t.outline
  | parameter p => p.outline
  | statement s | body s => s.outline
  | member m => m.outline
  | definition t => t.outline

/-- The part is no declaration. -/
def IsCode : Part → Prop
  | member _ | definition _ => False
  | _ => True

end Part

namespace Context

/-- A context with the documents of another one for the parts. -/
def refill (c alt : Context) : Context :=
  { c with
    expression := alt.expression, typeRef := alt.typeRef, typeRefAs := alt.typeRefAs
    parameter := alt.parameter, statement := alt.statement, body := alt.body
    member := alt.member, typeDefinition := alt.typeDefinition }

theorem wordy_typeName (c : Context) (t : NamedType) : (c.typeName t).Wordy := by
  unfold typeName
  split <;> trivial

end Context

/-! ### Outlines -/

namespace Outline

/-- The nodes of a tree that do not lie in type references. -/
def own : Outline → List Node
  | nothing | carried _ => []
  | node n parts => if n.key.category = .typeReference then [] else n :: parts.own
  | beside first second => first.own ++ second.own
  | before first rest => first.own ++ rest.own

/-- The number of nodes of a tree, those that type references carry included. -/
def size : Outline → Nat
  | nothing => 0
  | node _ parts => parts.size + 1
  | carried o => o.size
  | beside first second => first.size + second.size
  | before first rest => first.size + rest.size

/-- Outlines that say the same of nodes, and of those outside type references. -/
structure Equal (x y : Outline) : Prop extends x.Alike y where
  own : ∀ m, m ∈ x.own ↔ m ∈ y.own
  size : x.size = y.size

namespace Equal

variable {x y z x' y' : Outline}

theorem refl (x : Outline) : x.Equal x := ⟨.refl x, fun _ => .rfl, rfl⟩

theorem symm (h : x.Equal y) : y.Equal x :=
  ⟨h.toAlike.symm, fun m => (h.own m).symm, h.size.symm⟩

theorem trans (h : x.Equal y) (h' : y.Equal z) : x.Equal z :=
  ⟨h.toAlike.trans h'.toAlike, fun m => (h.own m).trans (h'.own m), h.size.trans h'.size⟩

theorem beside (h : x.Equal x') (h' : y.Equal y') : (Outline.beside x y).Equal (.beside x' y') where
  toAlike := h.toAlike.beside h'.toAlike
  own m := by simp only [Outline.own, List.mem_append, h.own, h'.own]
  size := by simp only [Outline.size, h.size, h'.size]

theorem comm (x y : Outline) : (Outline.beside x y).Equal (.beside y x) where
  toAlike := .comm x y
  own m := by simp only [Outline.own, List.mem_append, or_comm]
  size := Nat.add_comm _ _

theorem assoc (x y z : Outline) :
    (Outline.beside (.beside x y) z).Equal (.beside x (.beside y z)) where
  toAlike := .assoc x y z
  own m := by simp only [Outline.own, List.append_assoc]
  size := Nat.add_assoc _ _ _

theorem beside_nothing (x : Outline) : (Outline.beside x .nothing).Equal x where
  toAlike := .beside_nothing x
  own m := by simp only [Outline.own, List.append_nil]
  size := Nat.add_zero _

/-- The second of three parts may come first. -/
theorem swap (x y z : Outline) :
    (Outline.beside x (.beside y z)).Equal (.beside y (.beside x z)) :=
  (assoc x y z).symm.trans (((comm x y).beside (refl z)).trans (assoc y x z))

/-- The first three of four parts may stand in the opposite order. -/
theorem reverse (x y z w : Outline) :
    (Outline.beside x (.beside y (.beside z w))).Equal (.beside z (.beside y (.beside x w))) :=
  (swap x y _).trans (((refl y).beside (swap x z w)).trans (swap y z _))

theorem before_congr (h : x.Equal x') (h' : y.Equal y') :
    (Outline.before x y).Equal (.before x' y') where
  toAlike := h.toAlike.before_congr h'.toAlike
  own := (h.beside h').own
  size := (h.beside h').size

theorem before_assoc (x y z : Outline) :
    (Outline.before (.before x y) z).Equal (.before x (.before y z)) where
  toAlike := .before_assoc x y z
  own := (assoc x y z).own
  size := (assoc x y z).size

theorem before_nothing (x : Outline) : (Outline.before x .nothing).Equal x where
  toAlike := .before_nothing x
  own := (beside_nothing x).own
  size := (beside_nothing x).size

theorem nothing_before (x : Outline) : (Outline.before .nothing x).Equal x where
  toAlike := .nothing_before x
  own := ((comm .nothing x).trans (beside_nothing x)).own
  size := ((comm .nothing x).trans (beside_nothing x)).size

/-- The elements of two lists, one after the other. -/
theorem inOrder_append (xs ys : List Outline) :
    (inOrder (xs ++ ys)).Equal (.before (inOrder xs) (inOrder ys)) := by
  induction xs with
  | nil => exact (nothing_before _).symm
  | cons x more ih => exact ((refl x).before_congr ih).trans (before_assoc ..).symm

end Equal

/-! Nothing in a type reference is a node of its own. -/

@[simp] theorem own_typeRef (t : TypeRef) : t.outline.own = [] := by
  rw [t.outline_eq]
  rfl

@[simp] theorem own_typeRef? (t : Option TypeRef) : (typeOutline? t).own = [] := by
  cases t with
  | none => rfl
  | some t => exact own_typeRef t

@[simp] theorem own_typeRefs (ts : List TypeRef) : (inOrder (typeOutlines ts)).own = [] := by
  induction ts with
  | nil => rfl
  | cons t more ih =>
    show t.outline.own ++ (inOrder (typeOutlines more)).own = []
    rw [own_typeRef, ih]
    rfl

end Outline

/-! ### The relation -/

/-- Documents that a rule for the node `n` gives in the context `c` and, with the parts of `alt`, in
`c.refill alt`. If `whole` holds, only nodes in type references may be left out. -/
inductive Composed (hooks : Hooks) (faults : Faults) (whole : Prop) (c alt : Context) (n : Node) :
    Doc → Doc → Outline → Prop where
  /-- Words may stand for what may be left out. -/
  | words {d : Doc} {o : Outline} :
    d.Wordy → (whole → o.own = []) → Composed hooks faults whole c alt n d d o
  /-- Blank lines part the types of a unit. -/
  | typeGap {u : CodeUnit} :
    n = .unit u → Composed hooks faults whole c alt n .typeGap .typeGap .nothing
  | part (p : Part) :
    (whole → p.IsCode) → Composed hooks faults whole c alt n (p.doc c) (p.doc alt) p.outline
  | beside {a b a' b' : Doc} {x y : Outline} :
    Composed hooks faults whole c alt n a a' x → Composed hooks faults whole c alt n b b' y →
    Composed hooks faults whole c alt n (a ++ b) (a' ++ b') (.beside x y)
  | before {a b a' b' : Doc} {x y : Outline} :
    Composed hooks faults whole c alt n a a' x → Composed hooks faults whole c alt n b b' y →
    Composed hooks faults whole c alt n (a ++ b) (a' ++ b') (.before x y)
  /-- What writes nothing may be taken off the end. -/
  | trim {d d' : Doc} {o : Outline} :
    Composed hooks faults whole c alt n (d ++ .empty) (d' ++ .empty) o →
    Composed hooks faults whole c alt n d d' o
  | nested {d d' : Doc} {o : Outline} :
    Composed hooks faults whole c alt n d d' o →
    Composed hooks faults whole c alt n (.nested d) (.nested d') o
  | aligned {d d' : Doc} {o : Outline} :
    Composed hooks faults whole c alt n d d' o →
    Composed hooks faults whole c alt n (.aligned d) (.aligned d') o
  | inside {scope : TypeScope} {d d' : Doc} {o : Outline} :
    Composed hooks faults whole c alt n d d' o →
    Composed hooks faults whole c alt n (.inside scope d) (.inside scope d') o
  | perScope {d d' : Option TypeScope → Doc} {o : Outline} :
    (∀ scope, Composed hooks faults whole c alt n (d scope) (d' scope) o) →
    Composed hooks faults whole c alt n (.perScope d) (.perScope d') o
  | equal {d d' : Doc} {x y : Outline} :
    x.Equal y → Composed hooks faults whole c alt n d d' x →
    Composed hooks faults whole c alt n d d' y
  /-- The order of a list may be forgotten. -/
  | unordered {d d' : Doc} {x y : Outline} :
    Composed hooks faults whole c alt n d d' (.before x y) →
    Composed hooks faults whole c alt n d d' (.beside x y)
  /-- A node may be left out and its parts written as those of the node around it. -/
  | within {m : Node} {d d' : Doc} {o : Outline} :
    ¬ whole → m.key.category ≠ .typeReference → Composed hooks faults whole c alt n d d' o →
    Composed hooks faults whole c alt n d d' (.node m o)
  /-- A gap takes the place of any part. -/
  | gap {g : Gap} {o : Outline} :
    g.language = hooks.name → g.Plain →
    Composed hooks faults whole c alt n (.unsupported g (hooks.inlineComment g.message))
      (.unsupported g (hooks.inlineComment g.message)) o
  | fault {detail : String} {o : Outline} :
    faults n detail →
    Composed hooks faults whole c alt n (.malformed detail) (.malformed detail) o
  /-- The default value of a type reference is written without spans in place of the reference. -/
  | carried {e : Expression} {t : Node} {x : Outline} :
    t.key.category = .typeReference →
    Composed hooks faults whole c alt n (.synthetic e.key (c.expression e))
      (.synthetic e.key (alt.expression e)) (.node t (.beside x (.carried e.outline)))
  /-- A condition that no tree has is written with what belongs to the tree. -/
  | detached {a a' b b' : Doc} {m : Node} {o : Outline} :
    (∀ detail, ¬ faults (.expression Language.endless) detail) →
    Composed hooks faults whole c alt n a a' (.node (.expression Language.endless) .nothing) →
    Composed hooks faults whole c alt n b b' (.node m o) →
    Composed hooks faults whole c alt n (.synthetic Language.endless.key (a ++ b))
      (.synthetic Language.endless.key (a' ++ b')) (.node m o)

namespace Composed

variable {hooks : Hooks} {faults : Faults} {whole : Prop} {c alt : Context} {n : Node}
variable {a b a' b' d d' t : Doc} {o x y z w : Outline} {α : Type}

/-! ### Outlines in other orders -/

theorem comm (h : Composed hooks faults whole c alt n d d' (.beside x y)) :
    Composed hooks faults whole c alt n d d' (.beside y x) := .equal (.comm x y) h

theorem assoc (h : Composed hooks faults whole c alt n d d' (.beside (.beside x y) z)) :
    Composed hooks faults whole c alt n d d' (.beside x (.beside y z)) := .equal (.assoc x y z) h

/-- What is left out may stand beside a part. -/
theorem left (h : Composed hooks faults whole c alt n d d' x) (hy : whole → y.own = []) :
    Composed hooks faults whole c alt n d d' (.beside x y) :=
  .trim (.beside h (.words (d := .empty) trivial hy))

theorem right (h : Composed hooks faults whole c alt n d d' y) (hx : whole → x.own = []) :
    Composed hooks faults whole c alt n d d' (.beside x y) := (h.left hx).comm

/-- The first elements of a list may stand for the whole list. -/
theorem first (h : Composed hooks faults whole c alt n d d' x) (hy : whole → y.own = []) :
    Composed hooks faults whole c alt n d d' (.before x y) :=
  .trim (.before h (.words (d := .empty) trivial hy))

/-! ### Words around parts -/

theorem wordy (h : d.Wordy) : Composed hooks faults whole c alt n d d .nothing :=
  .words h fun _ => rfl

/-- What has no nodes may stand before a part. -/
theorem after (ht : Composed hooks faults whole c alt n a a' .nothing)
    (h : Composed hooks faults whole c alt n d d' o) :
    Composed hooks faults whole c alt n (a ++ d) (a' ++ d') o :=
  .equal (.trans (.comm ..) (.beside_nothing o)) (.beside ht h)

theorem after_words (ht : t.Wordy) (h : Composed hooks faults whole c alt n d d' o) :
    Composed hooks faults whole c alt n (t ++ d) (t ++ d') o := .after (.wordy ht) h

theorem before_words (h : Composed hooks faults whole c alt n d d' o) (ht : t.Wordy) :
    Composed hooks faults whole c alt n (d ++ t) (d' ++ t) o :=
  .equal (.beside_nothing o) (.beside h (.wordy ht))

/-- Text may stand before a part. -/
theorem after_text {s : String} (h : Composed hooks faults whole c alt n d d' o) :
    Composed hooks faults whole c alt n (text s ++ d) (text s ++ d') o :=
  .after_words (t := text s) trivial h

/-- The end of a line may stand before a part. -/
theorem after_line {s : String} (h : Composed hooks faults whole c alt n d d' o) :
    Composed hooks faults whole c alt n (line s ++ d) (line s ++ d') o :=
  .after_words (wordy_line s) h

/-- Text may stand after a part. -/
theorem text {s : String} (h : Composed hooks faults whole c alt n d d' o) :
    Composed hooks faults whole c alt n (d ++ Doc.text s) (d' ++ Doc.text s) o :=
  .before_words (t := Doc.text s) h trivial

/-- The line may end after a part. -/
theorem line {s : String} (h : Composed hooks faults whole c alt n d d' o) :
    Composed hooks faults whole c alt n (d ++ Doc.line s) (d' ++ Doc.line s) o :=
  .before_words h (wordy_line s)

theorem newline (h : Composed hooks faults whole c alt n d d' o) :
    Composed hooks faults whole c alt n (d ++ .newline) (d' ++ .newline) o :=
  .before_words (t := .newline) h trivial

/-! ### Cases and lists -/

theorem ite {p : Prop} [Decidable p] (h : p → Composed hooks faults whole c alt n a a' o)
    (h' : ¬ p → Composed hooks faults whole c alt n b b' o) :
    Composed hooks faults whole c alt n (if p then a else b) (if p then a' else b') o := by
  split
  · next hp => exact h hp
  · next hp => exact h' hp

theorem when {condition : Bool} (h : Composed hooks faults whole c alt n d d' o)
    (ho : condition = false → whole → o.own = []) :
    Composed hooks faults whole c alt n (Doc.when condition d) (Doc.when condition d') o := by
  cases condition with
  | false => exact .words (d := .empty) trivial (ho rfl)
  | true => exact h

/-- Nothing is written for a missing value. -/
theorem whenSome {doc doc' : α → Doc} {outline : Option α → Outline}
    (h : ∀ a, Composed hooks faults whole c alt n (doc a) (doc' a) (outline (some a)))
    (ho : whole → (outline none).own = []) (value : Option α) :
    Composed hooks faults whole c alt n (Doc.whenSome value doc) (Doc.whenSome value doc')
      (outline value) := by
  cases value with
  | none => exact .words (d := .empty) trivial ho
  | some a => exact h a

/-- Documents in order fill the outlines of a list. -/
theorem concat {doc doc' : α → Doc} {outline : α → Outline}
    (h : ∀ a, Composed hooks faults whole c alt n (doc a) (doc' a) (outline a)) (items : List α) :
    Composed hooks faults whole c alt n (Doc.concat (items.map doc)) (Doc.concat (items.map doc'))
      (.inOrder (items.map outline)) := by
  induction items with
  | nil => exact .wordy (d := .empty) trivial
  | cons a more ih => exact .before (h a) ih

theorem separated {s : String} (hs : Separates s) {doc doc' : α → Doc} {outline : α → Outline}
    (h : ∀ a, Composed hooks faults whole c alt n (doc a) (doc' a) (outline a)) (items : List α) :
    Composed hooks faults whole c alt n (Doc.separated s (items.map doc))
      (Doc.separated s (items.map doc')) (.inOrder (items.map outline)) := by
  have hrest : ∀ more : List α, Composed hooks faults whole c alt n (continued s (more.map doc))
      (continued s (more.map doc')) (.inOrder (more.map outline)) := by
    intro more
    induction more with
    | nil => exact .wordy (d := .empty) trivial
    | cons a more ih => exact .before (.after_words (t := .separator s) hs (h a)) ih
  cases items with
  | nil => exact .aligned (.wordy (d := .empty) trivial)
  | cons a more => exact .aligned (.before (h a) (hrest more))

theorem commaList {doc doc' : α → Doc} {outline : α → Outline}
    (h : ∀ a, Composed hooks faults whole c alt n (doc a) (doc' a) (outline a)) (items : List α) :
    Composed hooks faults whole c alt n (Doc.commaList (items.map doc))
      (Doc.commaList (items.map doc')) (.inOrder (items.map outline)) :=
  .separated (by decide) h items

/-! ### Parts -/

theorem expression (e : Expression) :
    Composed hooks faults whole c alt n (c.expression e) (alt.expression e) e.outline :=
  .part (.expression e) fun _ => trivial

theorem typeRef (t : TypeRef) :
    Composed hooks faults whole c alt n (c.typeRef t) (alt.typeRef t) t.outline :=
  .part (.typeRef t) fun _ => trivial

theorem typeRefAs (k : Nullability) (t : TypeRef) :
    Composed hooks faults whole c alt n (c.typeRefAs k t) (alt.typeRefAs k t) t.outline :=
  .part (.typeRefAs k t) fun _ => trivial

theorem parameter (p : Parameter) :
    Composed hooks faults whole c alt n (c.parameter p) (alt.parameter p) p.outline :=
  .part (.parameter p) fun _ => trivial

theorem statement (s : Statement) :
    Composed hooks faults whole c alt n (c.statement s) (alt.statement s) s.outline :=
  .part (.statement s) fun _ => trivial

theorem body (s : Statement) :
    Composed hooks faults whole c alt n (c.body s) (alt.body s) s.outline :=
  .part (.body s) fun _ => trivial

theorem member (m : Member) :
    Composed hooks faults False c alt n (c.member m) (alt.member m) m.outline :=
  .part (.member m) nofun

theorem definition (t : TypeDefinition) :
    Composed hooks faults False c alt n (c.typeDefinition t) (alt.typeDefinition t) t.outline :=
  .part (.definition t) nofun

/-- A type reference that may be missing, with words around it. -/
theorem typeRef? {doc doc' : TypeRef → Doc}
    (h : ∀ t, Composed hooks faults whole c alt n (doc t) (doc' t) t.outline)
    (value : Option TypeRef) :
    Composed hooks faults whole c alt n (Doc.whenSome value doc) (Doc.whenSome value doc')
      (typeOutline? value) :=
  .whenSome h (fun _ => rfl) value

/-- A statement that may be missing, with words around it. -/
theorem statement? {doc doc' : Statement → Doc}
    (h : ∀ s, Composed hooks faults whole c alt n (doc s) (doc' s) s.outline)
    (value : Option Statement) :
    Composed hooks faults whole c alt n (Doc.whenSome value doc) (Doc.whenSome value doc')
      (statementOutline? value) :=
  .whenSome h (fun _ => rfl) value

/-- An expression that may be missing, with words around it. -/
theorem expression? {doc doc' : Expression → Doc}
    (h : ∀ e, Composed hooks faults whole c alt n (doc e) (doc' e) e.outline)
    (value : Option Expression) :
    Composed hooks faults whole c alt n (Doc.whenSome value doc) (Doc.whenSome value doc')
      (expressionOutline? value) :=
  .whenSome h (fun _ => rfl) value

/-- Statements that may be missing, with words around them. -/
theorem statements? {doc doc' : List Statement → Doc}
    (h : ∀ ss, Composed hooks faults whole c alt n (doc ss) (doc' ss)
      (.inOrder (statementOutlines ss)))
    (value : Option (List Statement)) :
    Composed hooks faults whole c alt n (Doc.whenSome value doc) (Doc.whenSome value doc')
      (.inOrder (statementOutlines? value)) := by
  cases value with
  | none => exact .wordy (d := .empty) trivial
  | some ss => exact h ss

theorem expressions (es : List Expression) :
    Composed hooks faults whole c alt n (c.expressions es) ((c.refill alt).expressions es)
      (.inOrder (expressionOutlines es)) := by
  rw [expressionOutlines_eq]
  exact .commaList (fun e => .expression e) es

theorem typeRefs (ts : List TypeRef) :
    Composed hooks faults whole c alt n (c.typeRefs ts) ((c.refill alt).typeRefs ts)
      (.inOrder (typeOutlines ts)) := by
  rw [typeOutlines_eq]
  exact .commaList (fun t => .typeRef t) ts

theorem statements (ss : List Statement) :
    Composed hooks faults whole c alt n (c.statements ss) ((c.refill alt).statements ss)
      (.inOrder (statementOutlines ss)) := by
  rw [statementOutlines_eq]
  exact .concat (fun s => .statement s) ss

/-- Two lists of types may be written as one. -/
theorem types_append {doc doc' : TypeRef → Doc}
    (h : ∀ t, Composed hooks faults whole c alt n (doc t) (doc' t) t.outline)
    (ts us : List TypeRef) :
    Composed hooks faults whole c alt n (Doc.commaList ((ts ++ us).map doc))
      (Doc.commaList ((ts ++ us).map doc'))
      (.beside (.inOrder (typeOutlines ts)) (.inOrder (typeOutlines us))) := by
  have hall : Composed hooks faults whole c alt n (Doc.commaList ((ts ++ us).map doc))
      (Doc.commaList ((ts ++ us).map doc')) (.inOrder ((ts ++ us).map TypeRef.outline)) :=
    .commaList h _
  rw [typeOutlines_eq, typeOutlines_eq]
  rw [List.map_append (f := TypeRef.outline)] at hall
  exact .unordered (.equal (.inOrder_append ..) hall)

/-- A gap takes the place of any part. -/
theorem lacking {l : Language} (h : c.Speaks l) {construct : String} {detail : Option String}
    (hc : Plain construct) (hd : ∀ s ∈ detail, Plain s) :
    Composed l.hooks faults whole c alt n (c.unsupported construct detail)
      ((c.refill alt).unsupported construct detail) o := by
  obtain ⟨g, hg⟩ : ∃ g : Gap, g = ⟨c.language, construct, detail⟩ := ⟨_, rfl⟩
  have he : c.unsupported construct detail = .unsupported g (l.hooks.inlineComment g.message) := by
    rw [hg, ← h.remark]
    rfl
  have he' : (c.refill alt).unsupported construct detail = c.unsupported construct detail := rfl
  rw [he', he]
  exact .gap (hg ▸ h.language) (hg ▸ ⟨hc, hd⟩)

theorem unsupported {l : Language} (h : c.Speaks l) {construct : List Char}
    (hc : (construct.all fun c => c != '*' && c != '\n') = true) :
    Composed l.hooks faults whole c alt n (c.unsupported (String.ofList construct))
      ((c.refill alt).unsupported (String.ofList construct)) o :=
  .lacking h (.of_chars hc) nofun

theorem unsupported_detail {l : Language} (h : c.Speaks l) {construct : List Char}
    {detail : String} (hc : (construct.all fun c => c != '*' && c != '\n') = true)
    (hd : Plain detail) :
    Composed l.hooks faults whole c alt n (c.unsupported (String.ofList construct) (some detail))
      ((c.refill alt).unsupported (String.ofList construct) (some detail)) o :=
  .lacking h (.of_chars hc) fun _ hs => Option.some.inj hs ▸ hd

/-- Members one after the other, with words between any two. -/
theorem members {doc doc' : List Member → Doc} {gap : Member → Member → Doc}
    (hdoc : c.Lists gap doc) (hdoc' : (c.refill alt).Lists gap doc')
    (hgap : ∀ m next, (gap m next).Wordy) (ms : List Member) :
    Composed hooks faults False c alt n (doc ms) (doc' ms) (.inOrder (memberOutlines ms)) := by
  refine hdoc.induct (P := fun ms d =>
    Composed hooks faults False c alt n d (doc' ms) (.inOrder (memberOutlines ms))) ?_ (fun m => ?_)
    (fun m next rest ih => ?_) ms
  · rw [hdoc'.none]
    exact .wordy (d := .empty) trivial
  · rw [hdoc'.one]
    exact .first (.member m) nofun
  · rw [hdoc'.more]
    exact .before (.before_words (.member m) (hgap m next)) ih

/-! ### What follows from it -/

/-- What is put together from parts that follow their outlines follows the outline. -/
theorem follows {l : Language} (h : Composed l.hooks faults whole c alt n d d' o)
    (hc : c.Obeys l faults) (scope : Option TypeScope) :
    Follows l.hooks faults n (d.events scope) o := by
  induction h generalizing scope with
  | words hd =>
    rw [hd.textual.events]
    exact .nothing
  | typeGap => exact .nothing
  | part p =>
    cases p with
    | expression e => exact hc.expression e
    | typeRef t => exact hc.typeRef t scope
    | typeRefAs k t => exact hc.typeRefAs k t scope
    | parameter p => exact hc.parameter p scope
    | statement s => exact hc.statement s scope
    | body s => exact hc.body s scope
    | member m => exact hc.member m scope
    | definition t => exact hc.typeDefinition t scope
  | beside _ _ ih ih' => exact .beside (ih scope) (ih' scope)
  | before _ _ ih ih' => exact .before (ih scope) (ih' scope)
  | trim _ ih =>
    have h := ih scope
    rw [events_append, events_empty, Events.append_done] at h
    exact h
  | nested _ ih | aligned _ ih => exact ih scope
  | inside _ ih => exact ih _
  | perScope _ ih => exact ih scope scope
  | equal hxy _ ih => exact .alike hxy.toAlike (ih scope)
  | unordered _ ih => exact .unordered (ih scope)
  | within _ hm _ ih => exact .within hm (ih scope)
  | @gap g o hl hp =>
    rw [events, (hc.textual.inlineComment _).events]
    exact .gap hl hp
  | fault hf => exact .fault hf
  | @carried e t x _ =>
    rw [e.outline_eq]
    exact (hc.shown e scope).carried
  | detached hm _ _ ih ih' => exact .detached hm (.beside (ih scope) (ih' scope))

end Composed

/-! ### Languages -/

/-- Each rule of a language puts its document together from the parts of what it writes. -/
structure Language.Composes (l : Language) (faults : Faults) : Prop where
  wordy : l.hooks.Wordy
  importing : ∀ c alt i, l.hooks.importing (c.refill alt) i = l.hooks.importing c i
  docComment : ∀ comment, (l.units.docComment l.hooks comment).Wordy
  conditionStart : ∀ {whole c alt n} e, c.Speaks l →
    Composed l.hooks faults whole c alt n (l.units.conditionStart c e)
      (l.units.conditionStart (c.refill alt) e) e.outline
  conditionEnd : ∀ c, (l.units.conditionEnd c).Wordy
  conditionEnd_refill : ∀ c alt, l.units.conditionEnd (c.refill alt) = l.units.conditionEnd c
  attributeLine : ∀ {c alt n} (a : Attribute), c.Speaks l →
    Composed l.hooks faults False c alt n (l.units.attributeLine c a)
      (l.units.attributeLine (c.refill alt) a)
      (.beside a.type.outline (.inOrder (argumentOutlines a.arguments)))
  enclose_events : ∀ c u (d : Doc) scope, (l.units.enclose c u d).events scope = d.events scope
  enclose : ∀ {c alt n} u {d d' : Doc} {o : Outline}, c.Speaks l →
    Composed l.hooks faults False c alt n d d' o →
    Composed l.hooks faults False c alt n (l.units.enclose c u d)
      (l.units.enclose (c.refill alt) u d') o
  globals : ∀ {c alt n} gs, c.Speaks l →
    Composed l.hooks faults False c alt n (l.units.globals c gs)
      (l.units.globals (c.refill alt) gs) (.inOrder (gs.map fun g => g.member.outline))
  expression : ∀ {whole c alt} e, c.Speaks l →
    Composed l.hooks faults whole c alt (.expression e) (l.expressionRule c e)
      (l.expressionRule (c.refill alt) e) e.form.outline
  typeRef : ∀ {c alt n} t, c.Speaks l →
    Composed l.hooks faults False c alt n (l.typeRule c t) (l.typeRule (c.refill alt) t)
      t.form.outline
  parameter : ∀ {whole c alt n} (p : Parameter), c.Speaks l →
    Composed l.hooks faults whole c alt n (l.members.parameter c p)
      (l.members.parameter (c.refill alt) p) (.beside p.type.outline (expressionOutline? p.default))
  statement : ∀ {whole c alt n} s, c.Speaks l →
    Composed l.hooks faults whole c alt n (l.statementRule c s)
      (l.statementRule (c.refill alt) s) s.form.outline
  member : ∀ {c alt} m, c.Speaks l →
    Composed l.hooks faults False c alt (.member m) (l.memberRule c m)
      (l.memberRule (c.refill alt) m) m.form.outline
  definition : ∀ {c alt n} t, c.Speaks l →
    Composed l.hooks faults False c alt n (l.definitionRule c t)
      (l.definitionRule (c.refill alt) t) t.form.outline

/-- Such a language follows outlines. -/
theorem Language.Composes.obeys {l : Language} {faults : Faults} (h : l.Composes faults) :
    l.Obeys faults where
  textual := h.wordy.textual
  docComment comment := (h.docComment comment).textual
  conditionStart {c n} e scope hc := by
    have he : Composed l.hooks faults False c c n _ _ _ := h.conditionStart e hc.toSpeaks
    exact he.follows hc scope
  conditionEnd c := (h.conditionEnd c).textual
  attributeLine {c n} a scope hc := by
    have ha : Composed l.hooks faults False c c n _ _ _ := h.attributeLine a hc.toSpeaks
    exact ha.follows hc scope
  enclose := h.enclose_events
  globals {c n} gs scope hc := by
    have hgs : Composed l.hooks faults False c c n _ _ _ := h.globals gs hc.toSpeaks
    exact hgs.follows hc scope
  expression {c} e scope hc := by
    have he : Composed l.hooks faults False c c _ _ _ _ := h.expression e hc.toSpeaks
    exact he.follows hc scope
  typeRef {c n} t scope hc := by
    have ht : Composed l.hooks faults False c c n _ _ _ := h.typeRef t hc.toSpeaks
    exact ht.follows hc scope
  parameter {c n} p scope hc := by
    have hp : Composed l.hooks faults False c c n _ _ _ := h.parameter p hc.toSpeaks
    exact hp.follows hc scope
  statement {c n} s scope hc := by
    have hs : Composed l.hooks faults False c c n _ _ _ := h.statement s hc.toSpeaks
    exact hs.follows hc scope
  member {c} m scope hc := by
    have hm : Composed l.hooks faults False c c _ _ _ _ := h.member m hc.toSpeaks
    exact hm.follows hc scope
  definition {c n} t scope hc := by
    have ht : Composed l.hooks faults False c c n _ _ _ := h.definition t hc.toSpeaks
    exact ht.follows hc scope

end SourcePrinter
