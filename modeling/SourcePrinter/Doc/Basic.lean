import SourcePrinter.Syntax.Declaration

/-! Documents: what is to be written for a piece of source, before any decision on layout. A
document says which nodes its parts belong to, where lists may wrap, which part lies in which type,
and where a language had no words. -/

namespace SourcePrinter

/-- The categories of nodes that have spans. -/
inductive Category where
  | codeUnit
  | typeDefinition
  | member
  | parameter
  | statement
  | expression
  | typeReference
  deriving DecidableEq, Repr

/-- A node: numbers are unique within a category. -/
structure NodeKey where
  category : Category
  id : NodeId
  deriving DecidableEq, Repr

def Expression.key (e : Expression) : NodeKey := ⟨.expression, e.id⟩

def Statement.key (s : Statement) : NodeKey := ⟨.statement, s.id⟩

def TypeRef.key (t : TypeRef) : NodeKey := ⟨.typeReference, t.id⟩

def Parameter.key (p : Parameter) : NodeKey := ⟨.parameter, p.id⟩

def Member.key (m : Member) : NodeKey := ⟨.member, m.id⟩

def TypeDefinition.key (t : TypeDefinition) : NodeKey := ⟨.typeDefinition, t.id⟩

def CodeUnit.key (u : CodeUnit) : NodeKey := ⟨.codeUnit, u.id⟩

/-- The type definition whose members are being written. -/
structure TypeScope where
  name : String
  isInterface : Bool
  /-- Every member is static without saying so. -/
  isStatic : Bool
  deriving DecidableEq, Repr

namespace TypeScope

/-- The scope of the members of a type definition. -/
def of (t : TypeDefinition) : TypeScope :=
  match t.form with
  | .interfaceType _ => ⟨t.name, true, false⟩
  | .classType body => ⟨t.name, false, body.isStatic⟩
  | _ => ⟨t.name, false, false⟩

end TypeScope

/-- A construct that a language has no words for. -/
structure Gap where
  language : String
  construct : String
  detail : Option String
  deriving DecidableEq, Repr

namespace Gap

def message (g : Gap) : String :=
  g.construct ++ " is not supported by the " ++ g.language ++ " backend" ++
    match g.detail with
    | some detail => " (" ++ detail ++ ")"
    | none => ""

end Gap

/-- Why a rendering failed. -/
inductive RenderError where
  /-- The language has no words for a construct. -/
  | unsupported (gap : Gap)
  /-- The tree is not one that can be written. -/
  | malformed (detail : String)
  deriving DecidableEq, Repr

namespace RenderError

def message : RenderError → String
  | unsupported gap => gap.message
  | malformed detail => "malformed input: " ++ detail

end RenderError

/-- What is to be written. -/
inductive Doc where
  | empty
  | append (first second : Doc)
  /-- A text, in which line feeds start new lines. -/
  | text (s : String)
  | newline
  /-- Ends the line unless nothing stands on it. -/
  | lineStart
  /-- The blank lines between two types of a unit. -/
  | typeGap
  /-- One level deeper. -/
  | nested (body : Doc)
  /-- A list: separators in it break to the column where the outermost list in progress began. -/
  | aligned (body : Doc)
  | separator (s : String)
  /-- The writing of a node, whose span is kept. -/
  | node (key : NodeKey) (body : Doc)
  /-- No spans are kept for a node and for what is written inside it. -/
  | synthetic (key : NodeKey) (body : Doc)
  /-- What lies in a type. -/
  | inside (scope : TypeScope) (body : Doc)
  /-- What depends on the innermost type. -/
  | perScope (body : Option TypeScope → Doc)
  /-- A gap of the language, with the remark to write when gaps are no errors. -/
  | unsupported (gap : Gap) (remark : Doc)
  | malformed (detail : String)

namespace Doc

instance : Append Doc := ⟨append⟩

instance : Inhabited Doc := ⟨empty⟩

/-- A text and the end of the line. -/
def line (s : String) : Doc := text s ++ newline

/-- Documents one after the other. -/
def concat : List Doc → Doc
  | [] => empty
  | d :: ds => d ++ concat ds

/-- The documents after the first of a list, each after a separator. -/
def continued (s : String) : List Doc → Doc
  | [] => empty
  | d :: ds => separator s ++ d ++ continued s ds

/-- A list whose items are parted by a separator. -/
def separated (s : String) (items : List Doc) : Doc :=
  aligned <|
    match items with
    | [] => empty
    | d :: ds => d ++ continued s ds

/-- A list whose items are parted by commas. -/
def commaList (items : List Doc) : Doc := separated ", " items

/-- A document, or nothing. -/
def whenSome {α : Type} (value : Option α) (doc : α → Doc) : Doc :=
  match value with
  | some a => doc a
  | none => empty

/-- A document under a condition. -/
def when (condition : Bool) (doc : Doc) : Doc := if condition then doc else empty

/-- A property that documents keep when they are put one after the other. -/
structure Compositional (P : Doc → Prop) : Prop where
  empty : P empty
  append : ∀ first second, P first → P second → P (first ++ second)

namespace Compositional

variable {P : Doc → Prop} {d : Doc} {s : String} {items : List Doc}

theorem when (h : Compositional P) (hd : P d) (condition : Bool) : P (Doc.when condition d) := by
  cases condition with
  | false => exact h.empty
  | true => exact hd

theorem whenSome {α : Type} {doc : α → Doc} {value : Option α} (h : Compositional P)
    (hdoc : ∀ a ∈ value, P (doc a)) : P (Doc.whenSome value doc) := by
  cases value with
  | none => exact h.empty
  | some a => exact hdoc a rfl

theorem concat (h : Compositional P) (hitems : ∀ item ∈ items, P item) : P (Doc.concat items) := by
  induction items with
  | nil => exact h.empty
  | cons item more ih =>
    rw [List.forall_mem_cons] at hitems
    exact h.append _ _ hitems.1 (ih hitems.2)

theorem continued (h : Compositional P) (hs : P (.separator s)) (hitems : ∀ item ∈ items, P item) :
    P (Doc.continued s items) := by
  induction items with
  | nil => exact h.empty
  | cons item more ih =>
    rw [List.forall_mem_cons] at hitems
    exact h.append _ _ (h.append _ _ hs hitems.1) (ih hitems.2)

/-- A list has a property of its items if the separator and lists keep it. -/
theorem separated (h : Compositional P) (haligned : ∀ d, P d → P (.aligned d))
    (hs : P (.separator s)) (hitems : ∀ item ∈ items, P item) : P (Doc.separated s items) := by
  refine haligned _ ?_
  cases items with
  | nil => exact h.empty
  | cons item more =>
    rw [List.forall_mem_cons] at hitems
    exact h.append _ _ hitems.1 (h.continued hs hitems.2)

end Compositional

end Doc

end SourcePrinter
