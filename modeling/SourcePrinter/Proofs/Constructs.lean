import SourcePrinter.Proofs.Closing.Dialect
import SourcePrinter.Proofs.Alone

/-! Constructs that may be compiled under a condition: imports, attributes, members and type
definitions. A tree has a forest of them, in the order of the text. A document bears the forest if
it is put together from what a reading gets through and from the documents of the constructs, each
in its guard if it has a condition. -/

namespace SourcePrinter

open Doc

/-- What may be compiled under a condition. -/
inductive Construct where
  | imported (i : Import)
  | mark (a : Attribute)
  | member (m : Member)
  | definition (t : TypeDefinition)

namespace Construct

/-- The condition under which the construct is compiled. -/
def condition : Construct → Option Expression
  | imported i => i.condition
  | mark a => a.condition
  | member m => m.info.condition
  | definition t => t.info.condition

/-- The depth at which a context reaches all parts of the construct. -/
def reach : Construct → Nat
  | imported i => i.outline.size
  | mark a => a.outline.size
  | member m => m.outline.size - 1
  | definition t => t.outline.size - 1

/-- The document of the construct without its guard. -/
def doc (l : Language) (c : Context) : Construct → Doc
  | imported i => l.hooks.importing c i ++ lineStart
  | mark a => l.units.attributeLine c a ++ lineStart
  | member m => node m.key (l.preamble c m.info ++ l.memberRule c m) ++ lineStart
  | definition t =>
    node t.key (l.preamble c t.info ++ inside (.of t) (l.definitionRule c t)) ++ lineStart

/-- The document of the construct by itself, without its guard. -/
def document (l : Language) (setting : Setting) (k : Construct) : Doc :=
  k.doc l (l.context setting k.reach)

/-- The condition is within reach. -/
theorem size_condition {k : Construct} {e : Expression} (he : k.condition = some e) :
    e.outline.size ≤ k.reach := by
  cases k with
  | imported i =>
    have he : i.condition = some e := he
    rw [reach, Import.outline, he]
    exact Nat.le_refl _
  | mark a =>
    have he : a.condition = some e := he
    rw [reach, Attribute.outline, he]
    exact Nat.le_add_right _ _
  | member x =>
    have he : x.info.condition = some e := he
    simp only [reach, x.outline_eq, he, expressionOutline?, Outline.size]
    omega
  | definition t =>
    have he : t.info.condition = some e := he
    simp only [reach, t.outline_eq, he, expressionOutline?, Outline.size]
    omega

/-- A construct has one document in all contexts that reach its parts. -/
theorem doc_context {l : Language} {faults : Faults} (h : l.Composes faults) (setting : Setting)
    {k : Construct} {depth : Nat} (hk : k.reach ≤ depth) :
    k.doc l (l.context setting depth) = k.document l setting := by
  have hspeaks := l.context_speaks setting depth
  have hagrees := h.agrees setting k.reach hk (Nat.le_refl k.reach)
  have hrefill := l.context_refill setting depth k.reach
  unfold document
  -- From here on, the contexts are any two that agree on the parts.
  generalize l.context setting depth = c at *
  generalize l.context setting k.reach = alt at *
  rw [← hrefill]
  cases k with
  | imported i => rw [doc, doc, h.importing]
  | mark a =>
    have hrule : Composed l.hooks faults False c alt (.typeRef a.type) _ _ _ :=
      h.attributeLine a hspeaks
    have hsize := Nat.le_add_left
      (Outline.beside a.type.outline (.inOrder (argumentOutlines a.arguments))).size
      (expressionOutline? a.condition).size
    rw [doc, doc, hrule.eq hagrees hsize]
  | member x =>
    have hrule : Composed l.hooks faults False c alt (.member x) _ _ _ := h.member x hspeaks
    have hpreamble : Composed l.hooks faults False c alt (.member x) _ _ _ :=
      h.preamble hspeaks x.info
    have hsize : x.info.outline.size + x.form.outline.size ≤ (member x).reach := by
      simp only [reach, x.outline_eq, Outline.size]
      omega
    rw [doc, doc, hrule.eq hagrees (by omega), hpreamble.eq hagrees (by omega)]
  | definition t =>
    have hrule : Composed l.hooks faults False c alt (.definition t) _ _ _ :=
      h.definition t hspeaks
    have hpreamble : Composed l.hooks faults False c alt (.definition t) _ _ _ :=
      h.preamble hspeaks t.info
    have hsize : t.info.outline.size + t.form.outline.size ≤ (definition t).reach := by
      simp only [reach, t.outline_eq, Outline.size]
      omega
    rw [doc, doc, hrule.eq hagrees (by omega), hpreamble.eq hagrees (by omega)]

end Construct

/-! ### Forests of constructs -/

/-- Forests one after the other. -/
def Forest.join {α : Type} : List (Forest α) → Forest α
  | [] => .nil
  | f :: fs => f ++ join fs

def DeclarationInfo.constructs (info : DeclarationInfo) : Forest Construct :=
  .join (info.attributes.map fun a => .node (.mark a) .nil .nil)

mutual

/-- A definition with its attributes and members. C# writes no members for an extension. -/
def TypeDefinition.constructs (d : Dialect) : TypeDefinition → Forest Construct
  | ⟨id, name, info, form⟩ =>
    .node (.definition ⟨id, name, info, form⟩) (info.constructs ++ form.constructs d) .nil

def TypeDefinitionForm.constructs (d : Dialect) : TypeDefinitionForm → Forest Construct
  | .classType body | .structType body | .interfaceType body => body.constructs d
  | .extensionType body => if d = .csharp then .nil else body.constructs d
  | .aliasType .. | .enumeration .. | .blockType .. => .nil

def ClassBody.constructs (d : Dialect) : ClassBody → Forest Construct
  | ⟨_, _, _, members, _, _, _, _⟩ => .join (memberConstructs d members)

/-- A member with its attributes, and with the definition nested in it. -/
def Member.constructs (d : Dialect) : Member → Forest Construct
  | ⟨id, name, info, virtuality, isStatic, form⟩ =>
    .node (.member ⟨id, name, info, virtuality, isStatic, form⟩)
      (info.constructs ++ form.constructs d) .nil

def MemberForm.constructs (d : Dialect) : MemberForm → Forest Construct
  | .nestedType t => t.constructs d
  | .constructor _ | .destructor _ | .finalizer _ | .method _ | .field _ | .property _ | .event _
  | .customOperator .. => .nil

def memberConstructs (d : Dialect) : List Member → List (Forest Construct)
  | [] => []
  | m :: more => m.constructs d :: memberConstructs d more

end

theorem memberConstructs_eq (d : Dialect) (ms : List Member) :
    memberConstructs d ms = ms.map (·.constructs d) := by
  induction ms with
  | nil => rfl
  | cons m more ih => rw [memberConstructs, ih, List.map_cons]

theorem TypeDefinition.constructs_eq (d : Dialect) (t : TypeDefinition) :
    t.constructs d = .node (.definition t) (t.info.constructs ++ t.form.constructs d) .nil := by
  cases t; rfl

theorem Member.constructs_eq (d : Dialect) (m : Member) :
    m.constructs d = .node (.member m) (m.info.constructs ++ m.form.constructs d) .nil := by
  cases m; rfl

def CodeUnit.constructs (d : Dialect) (u : CodeUnit) : Forest Construct :=
  .join (u.imports.map fun i => .node (.imported i) .nil .nil) ++
    (.join (u.globals.map fun g => g.member.constructs d) ++ .join (u.types.map (·.constructs d)))

/-- The setting in which a request is written. -/
def Request.setting (options : Options) : Request → Setting
  | .unit u definitionOnly => .of options (some u) definitionOnly
  | .definition _ home definitionOnly | .member _ _ home definitionOnly =>
    .of options home definitionOnly
  | .parameter _ home | .statement _ home => .of options home false
  | .statementText _ | .expressionText _ => .of options none false

/-- The constructs that are written for a request. -/
def Request.constructs (d : Dialect) : Request → Forest Construct
  | .unit u _ => u.constructs d
  | .definition t _ _ => t.constructs d
  | .member m _ _ _ => m.constructs d
  | .parameter .. | .statement .. | .statementText _ | .expressionText _ => .nil

/-! ### Documents with constructs in them -/

/-- The guards of C# and Swift. -/
theorem Dialect.guarded_some (d : Dialect) (c : Context) (e : Expression) (x : Doc) :
    d.language.guarded c (some e) x =
      lineStart ++ (text "#if " ++ c.expression e ++ newline) ++ lineStart ++ x ++ lineStart ++
        line "#endif" ++ lineStart := by
  cases d <;> rfl

/-- A document that takes a reading from one place to another and has the constructs of a forest in
it, at the places where their text goes. -/
inductive Bears (d : Dialect) (setting : Setting) (m : Reading) :
    Doc → Option TypeScope → List Char → List Char → Forest Construct → Prop where
  | code {x : Doc} {scope : Option TypeScope} {opened next : List Char} :
    x.read m scope opened = some next → Bears d setting m x scope opened next .nil
  | append {x y : Doc} {scope : Option TypeScope} {opened next last : List Char}
      {f g : Forest Construct} :
    Bears d setting m x scope opened next f → Bears d setting m y scope next last g →
    Bears d setting m (x ++ y) scope opened last (f ++ g)
  | nested {x : Doc} {scope : Option TypeScope} {opened next : List Char} {f : Forest Construct} :
    Bears d setting m x scope opened next f → Bears d setting m (.nested x) scope opened next f
  | node {key : NodeKey} {x : Doc} {scope : Option TypeScope} {opened next : List Char}
      {f : Forest Construct} :
    Bears d setting m x scope opened next f → Bears d setting m (.node key x) scope opened next f
  | inside {inner : TypeScope} {x : Doc} {scope : Option TypeScope} {opened next : List Char}
      {f : Forest Construct} :
    Bears d setting m x (some inner) opened next f →
    Bears d setting m (.inside inner x) scope opened next f
  /-- A construct in its guard, if it has one. -/
  | construct {k : Construct} {depth : Nat} {scope : Option TypeScope} {opened : List Char}
      {f : Forest Construct} :
    k.reach ≤ depth →
    (∀ e ∈ k.condition, ((d.language.context setting depth).expression e).Closed m) →
    Bears d setting m (k.doc d.language (d.language.context setting depth)) scope opened opened f →
    Bears d setting m
      (d.language.guarded (d.language.context setting depth) k.condition
        (k.doc d.language (d.language.context setting depth)))
      scope opened opened (.node k f .nil)

namespace Bears

variable {d : Dialect} {setting : Setting} {m : Reading} {x y : Doc} {scope : Option TypeScope}
variable {opened next last : List Char} {f g : Forest Construct} {α : Type}

theorem closed (h : x.Closed m) : Bears d setting m x scope opened opened .nil :=
  .code (h scope opened)

theorem after (hx : x.read m scope opened = some next) (hy : Bears d setting m y scope next last f) :
    Bears d setting m (x ++ y) scope opened last f :=
  .append (.code hx) hy

theorem pass (hx : x.Closed m) (hy : Bears d setting m y scope opened last f) :
    Bears d setting m (x ++ y) scope opened last f :=
  .after (hx scope opened) hy

theorem before (hx : Bears d setting m x scope opened next f)
    (hy : y.read m scope next = some last) : Bears d setting m (x ++ y) scope opened last f := by
  rw [← Forest.append_nil f]
  exact .append hx (.code hy)

theorem braced (h : Bears d setting m x scope (m.enter '\x7b' opened) (m.enter '\x7b' opened) f) :
    Bears d setting m (Brace.braced x) scope opened opened f := by
  refine .before (.after ?_ (.nested h)) ?_
  · simp [isInk]
  · simp [isInk]

theorem braces (h : Bears d setting m x scope (m.enter '\x7b' opened) (m.enter '\x7b' opened) f) :
    Bears d setting m (Swift.braces x) scope opened opened f := by
  refine .before (.after ?_ (.nested h)) ?_
  · simp [isInk]
  · simp [isInk]

/-- Documents in order bear their forests in order. -/
theorem concat {doc : α → Doc} {forest : α → Forest Construct} {items : List α}
    (h : ∀ a ∈ items, Bears d setting m (doc a) scope opened opened (forest a)) :
    Bears d setting m (Doc.concat (items.map doc)) scope opened opened
      (.join (items.map forest)) := by
  induction items with
  | nil => exact .code rfl
  | cons a more ih =>
    exact .append (h a List.mem_cons_self) (ih fun b hb => h b (List.mem_cons_of_mem _ hb))

/-- Members in order, with words between any two, bear their trees. -/
theorem members {c : Context} {doc : List Member → Doc} {gap : Member → Member → Doc}
    (hdoc : c.Lists gap doc) (hgap : ∀ x next, (gap x next).Closed m) {xs : List Member}
    (h : ∀ x ∈ xs, Bears d setting m (c.member x) scope opened opened (x.constructs d)) :
    Bears d setting m (doc xs) scope opened opened (.join (memberConstructs d xs)) := by
  refine hdoc.induct (P := fun xs x =>
    (∀ x ∈ xs, Bears d setting m (c.member x) scope opened opened (x.constructs d)) →
      Bears d setting m x scope opened opened (.join (memberConstructs d xs)))
    (fun _ => .code rfl) (fun x hx => ?_) (fun x next rest ih hx => ?_) xs h
  · rw [memberConstructs, Forest.join, memberConstructs, Forest.join, Forest.append_nil]
    exact hx x List.mem_cons_self
  · rw [List.forall_mem_cons] at hx
    exact .append (hx.1.before (hgap x next scope opened)) (ih hx.2)

end Bears

end SourcePrinter
