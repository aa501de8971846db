import SourcePrinter.Proofs.Depth
import SourcePrinter.Proofs.Dialect
import SourcePrinter.Proofs.Runs

/-! Declarations without bodies. The signature of a declaration has no statements in its functions
and accessors, and the accessors that were there are still there. A rendering of declarations
without bodies is that of their signatures, whatever the bodies hold. -/

namespace SourcePrinter

open Doc

/-! ### Signatures -/

def MethodBody.signature (b : MethodBody) : MethodBody := { b with statements := [] }

def PropertyMember.signature (p : PropertyMember) : PropertyMember :=
  { p with getter := p.getter.map fun _ => [], setter := p.setter.map fun _ => [] }

def EventMember.signature (e : EventMember) : EventMember :=
  { e with add := e.add.map fun _ => [], remove := e.remove.map fun _ => [] }

mutual

/-- A type definition whose members have empty bodies, at any depth. -/
def TypeDefinition.signature : TypeDefinition → TypeDefinition
  | ⟨id, name, info, form⟩ => ⟨id, name, info, form.signature⟩

def TypeDefinitionForm.signature : TypeDefinitionForm → TypeDefinitionForm
  | .classType body => .classType body.signature
  | .structType body => .structType body.signature
  | .interfaceType body => .interfaceType body.signature
  | .extensionType body => .extensionType body.signature
  | .aliasType actual strict => .aliasType actual strict
  | .enumeration base cases => .enumeration base cases
  | .blockType parameters returnType => .blockType parameters returnType

def ClassBody.signature : ClassBody → ClassBody
  | ⟨genericParameters, ancestors, interfaces, members, isStatic, isSealed, isAbstract,
      isPartial⟩ =>
    ⟨genericParameters, ancestors, interfaces, memberSignatures members, isStatic, isSealed,
      isAbstract, isPartial⟩

def Member.signature : Member → Member
  | ⟨id, name, info, virtuality, isStatic, form⟩ =>
    ⟨id, name, info, virtuality, isStatic, form.signature⟩

def MemberForm.signature : MemberForm → MemberForm
  | .constructor body => .constructor body.signature
  | .destructor body => .destructor body.signature
  | .finalizer body => .finalizer body.signature
  | .method body => .method body.signature
  | .field field => .field field
  | .property property => .property property.signature
  | .event event => .event event.signature
  | .customOperator operator body => .customOperator operator body.signature
  | .nestedType t => .nestedType t.signature

def memberSignatures : List Member → List Member
  | [] => []
  | m :: more => m.signature :: memberSignatures more

end

def Global.signature : Global → Global
  | .function m => .function m.signature
  | .variable m => .variable m.signature

def CodeUnit.signature (u : CodeUnit) : CodeUnit :=
  { u with globals := u.globals.map Global.signature
           types := u.types.map TypeDefinition.signature }

/-- What a request for declarations without bodies is about. Other requests stay as they are. -/
def Request.signature : Request → Request
  | .unit u true => .unit u.signature true
  | .definition t home true => .definition t.signature (home.map CodeUnit.signature) true
  | .member m owner home true =>
    .member m.signature (owner.map TypeDefinition.signature) (home.map CodeUnit.signature) true
  | r => r

/-! ### Bodies -/

def MethodBody.bodies (b : MethodBody) : Outline := .inOrder (statementOutlines b.statements)

def PropertyMember.bodies (p : PropertyMember) : Outline :=
  .beside (.inOrder (statementOutlines? p.getter)) (.inOrder (statementOutlines? p.setter))

def EventMember.bodies (e : EventMember) : Outline :=
  .beside (.inOrder (statementOutlines? e.add)) (.inOrder (statementOutlines? e.remove))

mutual

/-- The outlines of all bodies in a type definition. -/
def TypeDefinition.bodies : TypeDefinition → Outline
  | ⟨_, _, _, form⟩ => form.bodies

def TypeDefinitionForm.bodies : TypeDefinitionForm → Outline
  | .classType body | .structType body | .interfaceType body | .extensionType body => body.bodies
  | .aliasType .. | .enumeration .. | .blockType .. => .nothing

def ClassBody.bodies : ClassBody → Outline
  | ⟨_, _, _, members, _, _, _, _⟩ => .inOrder (memberBodies members)

def Member.bodies : Member → Outline
  | ⟨_, _, _, _, _, form⟩ => form.bodies

def MemberForm.bodies : MemberForm → Outline
  | .constructor body | .destructor body | .finalizer body | .method body
  | .customOperator _ body => body.bodies
  | .field _ => .nothing
  | .property property => property.bodies
  | .event event => event.bodies
  | .nestedType t => t.bodies

def memberBodies : List Member → List Outline
  | [] => []
  | m :: more => m.bodies :: memberBodies more

end

def CodeUnit.bodies (u : CodeUnit) : Outline :=
  .beside (.inOrder (u.globals.map fun g => g.member.bodies))
    (.inOrder (u.types.map TypeDefinition.bodies))

/-- The outlines of the bodies that a request leaves out. -/
def Request.bodies : Request → Outline
  | .unit u true => u.bodies
  | .definition t _ true => t.bodies
  | .member m _ _ true => m.bodies
  | _ => .nothing

/-! ### Nodes of signatures and of bodies -/

/-- The nodes of a tree are those of two trees taken together. -/
structure Outline.Splits (x y z : Outline) : Prop where
  count : ∀ k, x.keys.count k = y.keys.count k + z.keys.count k
  size : x.size = y.size + z.size

namespace Outline.Splits

variable {x y z x' y' z' : Outline}

theorem refl (x : Outline) : x.Splits x .nothing := ⟨fun _ => rfl, rfl⟩

theorem gone (x : Outline) : x.Splits .nothing x :=
  ⟨fun _ => (Nat.zero_add _).symm, (Nat.zero_add _).symm⟩

theorem before (h : x.Splits y z) (h' : x'.Splits y' z') :
    (Outline.before x x').Splits (.before y y') (.before z z') where
  count k := by
    have hk := h.count k
    have hk' := h'.count k
    simp only [keys, List.count_append]
    omega
  size := by
    have hs := h.size
    have hs' := h'.size
    simp only [Outline.size]
    omega

theorem beside (h : x.Splits y z) (h' : x'.Splits y' z') :
    (Outline.beside x x').Splits (.beside y y') (.beside z z') :=
  ⟨(h.before h').count, (h.before h').size⟩

theorem left (h : x.Splits y z) (w : Outline) : (Outline.beside x w).Splits (.beside y w) z where
  count k := by
    have hk := h.count k
    simp only [keys, List.count_append]
    omega
  size := by
    have hs := h.size
    simp only [Outline.size]
    omega

theorem right (h : x.Splits y z) (w : Outline) : (Outline.beside w x).Splits (.beside w y) z where
  count k := by
    have hk := h.count k
    simp only [keys, List.count_append]
    omega
  size := by
    have hs := h.size
    simp only [Outline.size]
    omega

/-- A node stays where its parts split. -/
theorem node (h : x.Splits y z) {n m : Node} (hk : n.key = m.key) :
    (Outline.node n x).Splits (.node m y) z where
  count k := by
    have hc := h.count k
    simp only [keys, List.count_cons, hk]
    omega
  size := by
    have hs := h.size
    simp only [Outline.size]
    omega

theorem inOrder {α : Type} {f : α → α} {outline bodies : α → Outline}
    (h : ∀ a, (outline a).Splits (outline (f a)) (bodies a)) (items : List α) :
    (inOrder (items.map outline)).Splits (inOrder ((items.map f).map outline))
      (inOrder (items.map bodies)) := by
  induction items with
  | nil => exact .refl _
  | cons a more ih => exact (h a).before ih

/-- The statements of an accessor, if it is there. -/
theorem accessor (statements : Option (List Statement)) :
    (Outline.inOrder (statementOutlines? statements)).Splits
      (.inOrder (statementOutlines? (statements.map fun _ => [])))
      (.inOrder (statementOutlines? statements)) := by
  cases statements with
  | none => exact .refl _
  | some ss => exact .gone _

end Outline.Splits

theorem MethodBody.splits (b : MethodBody) : b.outline.Splits b.signature.outline b.bodies :=
  .right (.right (.right (.gone _) _) _) _

theorem PropertyMember.splits (p : PropertyMember) :
    p.outline.Splits p.signature.outline p.bodies :=
  .right (.right (.beside (.accessor p.getter) (.left (.accessor p.setter) _)) _) _

theorem EventMember.splits (e : EventMember) : e.outline.Splits e.signature.outline e.bodies :=
  .right (.beside (.accessor e.add) (.accessor e.remove)) _

mutual

theorem TypeDefinition.splits : ∀ t : TypeDefinition, t.outline.Splits t.signature.outline t.bodies
  | ⟨_, _, info, form⟩ => .right (.node (.right form.splits info.outline) (by rfl)) _

theorem TypeDefinitionForm.splits :
    ∀ f : TypeDefinitionForm, f.outline.Splits f.signature.outline f.bodies
  | .classType body | .structType body | .interfaceType body | .extensionType body => body.splits
  | .aliasType .. | .enumeration .. | .blockType .. => .refl _

theorem ClassBody.splits : ∀ b : ClassBody, b.outline.Splits b.signature.outline b.bodies
  | ⟨_, _, _, members, _, _, _, _⟩ => .right (.right (.right (splits_members members) _) _) _

theorem Member.splits : ∀ m : Member, m.outline.Splits m.signature.outline m.bodies
  | ⟨_, _, info, _, _, form⟩ => .right (.node (.right form.splits info.outline) (by rfl)) _

theorem MemberForm.splits : ∀ f : MemberForm, f.outline.Splits f.signature.outline f.bodies
  | .constructor body | .destructor body | .finalizer body | .method body
  | .customOperator _ body => body.splits
  | .field _ => .refl _
  | .property property => property.splits
  | .event event => event.splits
  | .nestedType t => t.splits

theorem splits_members : ∀ ms : List Member, (Outline.inOrder (memberOutlines ms)).Splits
    (.inOrder (memberOutlines (memberSignatures ms))) (.inOrder (memberBodies ms))
  | [] => .refl _
  | m :: more => m.splits.before (splits_members more)

end

theorem CodeUnit.splits (u : CodeUnit) : u.outline.Splits u.signature.outline u.bodies := by
  have hglobal : ∀ g : Global, g.member.outline.Splits g.signature.member.outline g.member.bodies
    | .function m | .variable m => m.splits
  exact .node (.right (.beside (.inOrder hglobal u.globals) (.inOrder TypeDefinition.splits u.types))
    _) (by rfl)

theorem Request.splits (r : Request) : r.outline.Splits r.signature.outline r.bodies := by
  cases r with
  | unit u definitionOnly =>
    cases definitionOnly with
    | false => exact .refl _
    | true => exact u.splits
  | definition t home definitionOnly =>
    cases definitionOnly with
    | false => exact .refl _
    | true => exact t.splits
  | member m owner home definitionOnly =>
    cases definitionOnly with
    | false => exact .refl _
    | true => exact m.splits
  | parameter | statement | statementText | expressionText => exact .refl _

/-! ### Rules that leave bodies out -/

/-- A context for declarations without bodies: the documents of its parts are those of their
signatures. -/
structure Context.Forgets (c : Context) : Prop where
  definitionOnly : c.setting.definitionOnly = true
  member : ∀ m, c.member m.signature = c.member m
  definition : ∀ t, c.typeDefinition t.signature = c.typeDefinition t

/-- The rules of a language, given such a context, leave bodies out. -/
structure Language.Forgets (l : Language) : Prop where
  member : ∀ {c} m, c.Forgets → l.memberRule c m.signature = l.memberRule c m
  definition : ∀ {c} t, c.Forgets → l.definitionRule c t.signature = l.definitionRule c t
  globals : ∀ {c} gs, c.Forgets →
    l.units.globals c (gs.map Global.signature) = l.units.globals c gs
  enclose : ∀ c u d, l.units.enclose c u.signature d = l.units.enclose c u d

theorem memberSignatures_eq (ms : List Member) : memberSignatures ms = ms.map Member.signature := by
  induction ms with
  | nil => rfl
  | cons m more ih => rw [memberSignatures, ih, List.map_cons]

theorem Member.isField_signature (m : Member) : m.signature.isField = m.isField := by
  obtain ⟨_, _, _, _, _, form⟩ := m
  cases form <;> rfl

/-- Lists of members leave bodies out if the same stands between members. -/
theorem Context.Forgets.members {c : Context} (hc : c.Forgets) {gap : Member → Member → Doc}
    {doc : List Member → Doc} (hdoc : c.Lists gap doc)
    (hgap : ∀ m next, gap m.signature next.signature = gap m next) (ms : List Member) :
    doc (ms.map Member.signature) = doc ms :=
  hdoc.map_congr (fun _ => rfl) (fun _ _ _ _ => congrArg₂ (· ++ ·)) hgap hc.member ms

/-- A property keeps its accessors. -/
theorem PropertyMember.accessors_signature (p : PropertyMember) :
    p.signature.isStored = p.isStored ∧ p.signature.isReadable = p.isReadable ∧
      p.signature.isSettable = p.isSettable := by
  obtain ⟨_, _, getter, setter, _, _⟩ := p
  cases getter <;> cases setter <;> exact ⟨rfl, rfl, rfl⟩

namespace CSharp

variable {c : Context}

theorem methodBody_of_definitionOnly (h : c.setting.definitionOnly = true) (m : Member)
    (b : MethodBody) : methodBody c m b = .perScope fun _ => line ";" := by
  simp only [methodBody, h, Bool.true_or, if_true]

theorem property_signature (hc : c.Forgets) (m m' : Member) (p : PropertyMember)
    (hm : memberModifiers m' = memberModifiers m) (hn : m'.name = m.name) :
    property c m' p.signature = property c m p := by
  obtain ⟨hstored, hreadable, hsettable⟩ := p.accessors_signature
  simp only [property, hc.definitionOnly, Bool.or_true, if_true, accessorSignatures, hreadable,
    hsettable, hstored, hm, hn]
  rfl

theorem event_signature (hc : c.Forgets) (m m' : Member) (e : EventMember)
    (hm : memberModifiers m' = memberModifiers m) (hn : m'.name = m.name) :
    event c m' e.signature = event c m e := by
  obtain ⟨type, add, remove⟩ := e
  cases add <;> cases remove <;>
    simp [event, EventMember.signature, hc.definitionOnly, hm, hn]

theorem memberRule_signature (hc : c.Forgets) (m : Member) :
    Language.csharp.memberRule c m.signature = Language.csharp.memberRule c m := by
  obtain ⟨id, name, info, virtuality, isStatic, form⟩ := m
  cases form with
  | constructor b | finalizer b | method b | customOperator _ b =>
    have hbody := methodBody_of_definitionOnly hc.definitionOnly
    simp only [Member.signature, MemberForm.signature, Language.memberRule, Language.csharp, members,
      method, customOperator, hbody]
    rfl
  | destructor b | field f => rfl
  | property p => exact property_signature hc _ _ p rfl rfl
  | event e => exact event_signature hc _ _ e rfl rfl
  | nestedType t => exact hc.definition t

theorem memberList_signature (hc : c.Forgets) (ms : List Member) :
    memberList c (memberSignatures ms) = memberList c ms := by
  rw [memberSignatures_eq]
  refine hc.members (memberList_lists c) (fun m next => ?_) ms
  rw [m.isField_signature, next.isField_signature]

theorem classLike_signature (hc : c.Forgets) (keyword : String) (t t' : TypeDefinition)
    (body : ClassBody) (hi : t'.info = t.info) (hn : t'.name = t.name) :
    classLike c keyword t' body.signature = classLike c keyword t body := by
  obtain ⟨_, _, _, members, _, _, _, _⟩ := body
  simp only [classLike, ClassBody.signature, memberList_signature hc, hi, hn]

theorem globals_signature (hc : c.Forgets) (gs : List Global) :
    globals c (gs.map Global.signature) = globals c gs := by
  have hmembers : (gs.map Global.signature).map Global.member =
      (gs.map Global.member).map Member.signature := by
    rw [List.map_map, List.map_map]
    exact List.map_congr_left fun g _ => by cases g <;> rfl
  simp only [globals, hmembers, hc.members (spacedMembers_lists c) (fun _ _ => rfl),
    List.isEmpty_map]

end CSharp

theorem Language.csharp_forgets : Language.csharp.Forgets where
  member m hc := CSharp.memberRule_signature hc m
  definition t hc := by
    obtain ⟨_, _, _, form⟩ := t
    cases form with
    | classType body | structType body | interfaceType body =>
      exact CSharp.classLike_signature hc _ _ _ body rfl rfl
    | aliasType | enumeration | extensionType | blockType => rfl
  globals gs hc := CSharp.globals_signature hc gs
  enclose _ _ _ := rfl

namespace Swift

variable {c : Context}

theorem functionBody_of_definitionOnly (h : c.setting.definitionOnly = true) (b : MethodBody) :
    functionBody c b = .perScope fun _ => newline := by
  simp only [functionBody, h, Bool.true_or, if_true]

theorem property_signature (hc : c.Forgets) (m m' : Member) (p : PropertyMember)
    (hm : memberModifiers m' = memberModifiers m) (hn : m'.name = m.name) :
    property c m' p.signature = property c m p := by
  obtain ⟨hstored, -, hsettable⟩ := p.accessors_signature
  have hhead : propertyHead c m' p.signature = propertyHead c m p := by
    simp only [propertyHead, hm, hn]
    rfl
  -- The accessors are written for a property that is not stored, and then only with bodies.
  cases hs : p.isStored with
  | false =>
    simp only [property, hhead, hc.definitionOnly, hstored, hsettable, hs, Bool.not_false,
      Bool.and_true, Bool.or_true, if_true]
  | true =>
    simp only [property, hhead, hc.definitionOnly, hstored, hsettable, hs, if_true]
    rfl

theorem memberRule_signature {lowercaseCases : Bool} (hc : c.Forgets) (m : Member) :
    (Language.swift lowercaseCases).memberRule c m.signature =
      (Language.swift lowercaseCases).memberRule c m := by
  obtain ⟨id, name, info, virtuality, isStatic, form⟩ := m
  have hbody := functionBody_of_definitionOnly hc.definitionOnly
  cases form with
  | destructor b | finalizer b =>
    simp only [Member.signature, MemberForm.signature, Language.memberRule, Language.swift, members,
      destructor, hbody]
  | constructor b | method b | customOperator _ b =>
    simp only [Member.signature, MemberForm.signature, Language.memberRule, Language.swift, members,
      constructor, method, customOperator, hbody]
    rfl
  | field | event => rfl
  | property p => exact property_signature hc _ _ p rfl rfl
  | nestedType t => exact hc.definition t

theorem memberList_signature (hc : c.Forgets) (ms : List Member) :
    memberList c (memberSignatures ms) = memberList c ms := by
  rw [memberSignatures_eq]
  exact hc.members (memberList_lists c) (fun _ _ => rfl) ms

theorem classLike_signature (hc : c.Forgets) (words : Doc) (t t' : TypeDefinition)
    (body : ClassBody) (hi : t'.info = t.info) (hn : t'.name = t.name) :
    classLike c words t' body.signature = classLike c words t body := by
  obtain ⟨_, _, _, members, _, _, _, _⟩ := body
  simp only [classLike, ClassBody.signature, memberList_signature hc, hi, hn]

theorem extensionType_signature (hc : c.Forgets) (t t' : TypeDefinition) (body : ClassBody)
    (hi : t'.info = t.info) (hn : t'.name = t.name) :
    extensionType c t' body.signature = extensionType c t body := by
  obtain ⟨_, _, _, members, _, _, _, _⟩ := body
  simp only [extensionType, ClassBody.signature, memberList_signature hc, hi, hn]

end Swift

theorem Language.swift_forgets (lowercaseCases : Bool) :
    (Language.swift lowercaseCases).Forgets where
  member m hc := Swift.memberRule_signature hc m
  definition t hc := by
    obtain ⟨_, _, _, form⟩ := t
    cases form with
    | classType body | structType body | interfaceType body =>
      obtain ⟨_, _, _, _, _, _, _, _⟩ := body
      exact Swift.classLike_signature hc _ _ _ ⟨_, _, _, _, _, _, _, _⟩ rfl rfl
    | extensionType body => exact Swift.extensionType_signature hc _ _ body rfl rfl
    | aliasType | enumeration | blockType => rfl
  globals gs hc := by
    refine congrArg concat ?_
    rw [List.map_map]
    exact List.map_congr_left fun g _ => by cases g <;> exact hc.member _
  enclose _ _ _ := rfl

theorem Dialect.forgets (d : Dialect) : d.language.Forgets :=
  match d with
  | csharp => Language.csharp_forgets
  | swift lowercaseCases => Language.swift_forgets lowercaseCases

/-! ### Trees without bodies -/

theorem TypeScope.of_signature (t : TypeDefinition) : of t.signature = of t := by
  obtain ⟨_, _, _, form⟩ := t
  cases form with
  | classType body =>
    obtain ⟨_, _, _, _, _, _, _, _⟩ := body
    rfl
  | structType | interfaceType | extensionType | aliasType | enumeration | blockType => rfl

/-- The settings of a unit depend on its namespace only. -/
theorem Setting.of_signature (options : Options) (home : Option CodeUnit) (definitionOnly : Bool) :
    of options (home.map CodeUnit.signature) definitionOnly = of options home definitionOnly := by
  cases home <;> rfl

namespace Language.Forgets

variable {l : Language} {faults : Faults} {c : Context} {setting : Setting}

theorem memberNode (h : l.Forgets) (hc : c.Forgets) (m : Member) :
    l.memberNode c m.signature = l.memberNode c m := by
  have hrule := h.member m hc
  obtain ⟨id, name, info, virtuality, isStatic, form⟩ := m
  exact congrArg (fun d => l.guarded c info.condition
    (node ⟨.member, id⟩ (l.preamble c info ++ d) ++ lineStart)) hrule

theorem definitionNode (h : l.Forgets) (hc : c.Forgets) (t : TypeDefinition) :
    l.definitionNode c t.signature = l.definitionNode c t := by
  have hinside : inside (.of t.signature) (l.definitionRule c t.signature) =
      inside (.of t) (l.definitionRule c t) := by
    rw [TypeScope.of_signature, h.definition t hc]
  obtain ⟨id, name, info, form⟩ := t
  exact congrArg (fun d => l.guarded c info.condition
    (node ⟨.typeDefinition, id⟩ (l.preamble c info ++ d) ++ lineStart)) hinside

/-- Contexts of every depth leave bodies out. -/
theorem context (h : l.Forgets) (hs : setting.definitionOnly = true) (depth : Nat) :
    (l.context setting depth).Forgets := by
  induction depth with
  | zero => exact ⟨hs, fun _ => rfl, fun _ => rfl⟩
  | succ depth ih => exact ⟨ih.definitionOnly, h.memberNode ih, h.definitionNode ih⟩

theorem unitRule (h : l.Forgets) (hc : c.Forgets) (u : CodeUnit) :
    l.unitRule c u.signature = l.unitRule c u := by
  have htypes : ∀ (ts : List TypeDefinition) (first : Bool),
      typeList c first (ts.map TypeDefinition.signature) = typeList c first ts := by
    intro ts
    induction ts with
    | nil => exact fun _ => rfl
    | cons t more ih =>
      intro first
      simp only [List.map_cons, typeList, hc.definition t, ih]
  have hglobals : l.units.globals c u.signature.globals = l.units.globals c u.globals :=
    h.globals u.globals hc
  have hempty : u.signature.globals.isEmpty = u.globals.isEmpty := List.isEmpty_map
  have henclose : ∀ d, l.units.enclose c u.signature d = l.units.enclose c u d := h.enclose c u
  simp only [Language.unitRule, hglobals, hempty, henclose,
    show u.signature.types = u.types.map TypeDefinition.signature from rfl, htypes]
  rfl

/-- Sizes of signatures do not reach past those of the trees. -/
theorem definitionDoc (h : l.Forgets) (hl : l.Composes faults)
    (hs : setting.definitionOnly = true) (t : TypeDefinition) :
    l.definitionDoc setting t.signature = l.definitionDoc setting t := by
  have hsize := t.splits.size
  rw [t.size_outline, t.signature.size_outline] at hsize
  have hpart : (Part.definition t.signature).outline.size = t.signature.size :=
    t.signature.size_outline
  calc l.definitionDoc setting t.signature
    _ = (l.context setting t.size).typeDefinition t.signature :=
      hl.doc_context setting (.definition t.signature) (by omega) (by omega)
    _ = l.definitionDoc setting t := (h.context hs t.size).definition t

theorem memberDoc (h : l.Forgets) (hl : l.Composes faults)
    (hs : setting.definitionOnly = true) (m : Member) :
    l.memberDoc setting m.signature = l.memberDoc setting m := by
  have hsize := m.splits.size
  rw [m.size_outline, m.signature.size_outline] at hsize
  have hpart : (Part.member m.signature).outline.size = m.signature.size :=
    m.signature.size_outline
  calc l.memberDoc setting m.signature
    _ = (l.context setting m.size).member m.signature :=
      hl.doc_context setting (.member m.signature) (by omega) (by omega)
    _ = l.memberDoc setting m := (h.context hs m.size).member m

theorem unitDoc (h : l.Forgets) (hl : l.Composes faults) (hs : setting.definitionOnly = true)
    (u : CodeUnit) : l.unitDoc setting u.signature = l.unitDoc setting u := by
  have hsize := u.splits.size
  rw [u.size_outline, u.signature.size_outline] at hsize
  have hrule : l.unitRule (l.context setting u.signature.size) u.signature =
      l.unitRule (l.context setting u.size) u :=
    (hl.unitRule_context setting u.signature (Nat.le_refl _) (by omega)).trans
      (h.unitRule (h.context hs u.size) u)
  exact congrArg (node u.key) hrule

/-- The document of a request for declarations without bodies is that of the signatures. -/
theorem document (h : l.Forgets) (hl : l.Composes faults) (options : Options) (r : Request) :
    r.signature.document l options = r.document l options := by
  cases r with
  | unit u definitionOnly =>
    cases definitionOnly with
    | false => rfl
    | true => exact h.unitDoc hl rfl u
  | definition t home definitionOnly =>
    cases definitionOnly with
    | false => rfl
    | true =>
      simp only [Request.signature, Request.document, Setting.of_signature]
      exact h.definitionDoc hl rfl t
  | member m owner home definitionOnly =>
    cases definitionOnly with
    | false => rfl
    | true =>
      have hm : l.memberDoc (.of options home true) m.signature =
          l.memberDoc (.of options home true) m := h.memberDoc hl rfl m
      simp only [Request.signature, Request.document, Setting.of_signature, hm]
      cases owner with
      | none => rfl
      | some t => exact congrArg (inside · _) (TypeScope.of_signature t)
  | parameter | statement | statementText | expressionText => rfl

end Language.Forgets

/-- Declarations without bodies are rendered the same, whatever their bodies hold: requests for
declarations that differ in bodies only give the same text with the same spans, or the same error.
Only nodes of the signatures have spans, and so no node of a body has one that has no other place. -/
theorem Dialect.bodies_are_left_out (d : Dialect) (options : Options) {r r' : Request}
    (h : r.signature = r'.signature) :
    r.render d.language options = r'.render d.language options ∧
      ∀ out, r.render d.language options = .ok out →
        (∀ k, (out.spans.get? k).isSome → k ∈ r.signature.outline.keys) ∧
        ∀ k ∈ r.bodies.keys, r.outline.Single k → out.spans.get? k = none := by
  have hdocument := d.forgets.document d.composes options
  have hspans : ∀ out, r.render d.language options = .ok out →
      ∀ k, (out.spans.get? k).isSome → k ∈ r.signature.outline.keys := by
    intro out hout k hk
    have hfollows : Follows d.language.hooks (.of d.fault?) (.expression Language.endless)
        ((r.signature.document d.language options).events none) r.signature.outline :=
      d.obeys.request options r.signature
    rw [hdocument r] at hfollows
    exact (hfollows.fits []).mem ((isSome_span_iff hout k).1 hk)
  refine ⟨?_, fun out hout => ⟨hspans out hout, fun k hk hsingle => ?_⟩⟩
  · simp only [Request.render]
    rw [← hdocument r, ← hdocument r', h]
  · have hcount := r.splits.count k
    have hbody : 0 < r.bodies.keys.count k := List.count_pos_iff.2 hk
    have hnone : k ∉ r.signature.outline.keys := by
      rw [← List.count_eq_zero]
      have hle : r.outline.keys.count k ≤ 1 := hsingle
      omega
    rw [← Option.not_isSome_iff_eq_none]
    exact fun hsome => hnone (hspans out hout k hsome)

/-- A request for the signature of a class with one method, which has the given statements. -/
def Request.declareGreeter (statements : List Statement) : Request :=
  let info : DeclarationInfo := ⟨.everyone, none, [], none⟩
  let greet : Member :=
    ⟨1, "greet", info, .none, false, .method ⟨[], [], none, statements, false, false, false⟩⟩
  .definition ⟨1, "Greeter", info, .classType ⟨[], [], [], [greet], false, false, false, false⟩⟩
    none true

/-- An integer in base seven, which no language can write, does no harm in a body. -/
theorem Request.declareGreeter_agrees :
    let faulty : Statement := ⟨1, .returning (some ⟨1, .integer 5 7⟩)⟩
    (declareGreeter [faulty]).signature = (declareGreeter []).signature ∧
      ∃ out, (declareGreeter [faulty]).render .csharp .initial = .ok out ∧
        (declareGreeter []).render .csharp .initial = .ok out ∧
        out.spans.get? faulty.key = none := by
  intro faulty
  have hsignature : (declareGreeter [faulty]).signature = (declareGreeter []).signature := rfl
  obtain ⟨hsame, hspans⟩ := Dialect.bodies_are_left_out .csharp .initial hsignature
  obtain ⟨out, hout⟩ : ∃ out, (declareGreeter []).render .csharp .initial = .ok out := ⟨_, rfl⟩
  have hfaulty : (declareGreeter [faulty]).render .csharp .initial = .ok out := hsame.trans hout
  have hbody : faulty.key ∈ (declareGreeter [faulty]).bodies.keys := List.mem_cons_self
  have hsingle : (declareGreeter [faulty]).outline.keys.count faulty.key ≤ 1 := by decide
  exact ⟨hsignature, out, hfaulty, hout, (hspans out hfaulty).2 _ hbody hsingle⟩

end SourcePrinter
