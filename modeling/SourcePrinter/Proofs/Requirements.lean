import SourcePrinter.Proofs.Signature

/-! Members without bodies of their own: the members of an interface, and in C# the abstract ones.
Such a member is rendered as a signature, whatever its body holds. C# misses the accessors of
properties, and those of events that have both. -/

namespace SourcePrinter

open Doc

/-! ### Documents in a known type -/

/-- The document that is written in the given type. Nothing in it depends on the type. -/
def Doc.settle : Doc → Option TypeScope → Doc
  | append first second, scope => append (first.settle scope) (second.settle scope)
  | nested body, scope => nested (body.settle scope)
  | aligned body, scope => aligned (body.settle scope)
  | node key body, scope => node key (body.settle scope)
  | synthetic key body, scope => synthetic key (body.settle scope)
  | inside inner body, _ => inside inner (body.settle (some inner))
  | perScope body, scope => (body scope).settle scope
  | unsupported gap remark, scope => unsupported gap (remark.settle scope)
  | empty, _ => empty
  | text s, _ => text s
  | newline, _ => newline
  | lineStart, _ => lineStart
  | typeGap, _ => typeGap
  | separator s, _ => separator s
  | malformed detail, _ => malformed detail

namespace Doc

section

variable (scope : Option TypeScope)

@[simp] theorem settle_append (first second : Doc) :
    (first ++ second).settle scope = first.settle scope ++ second.settle scope := rfl

@[simp] theorem settle_nested (body : Doc) :
    (nested body).settle scope = nested (body.settle scope) := rfl

@[simp] theorem settle_node (key : NodeKey) (body : Doc) :
    (node key body).settle scope = node key (body.settle scope) := rfl

@[simp] theorem settle_inside (inner : TypeScope) (body : Doc) :
    (inside inner body).settle scope = inside inner (body.settle (some inner)) := rfl

@[simp] theorem settle_perScope (body : Option TypeScope → Doc) :
    (perScope body).settle scope = (body scope).settle scope := rfl

@[simp] theorem settle_line (s : String) : (line s).settle scope = line s := rfl

end

/-- A run writes the document that belongs to the type in which it starts. -/
theorem run_settle (options : Options) (d : Doc) (column : Nat) (p : Pass) :
    (d.settle p.scope).run options column p = d.run options column p := by
  -- On the document. A part starts in the type in which the whole does, or in one that is entered.
  induction d generalizing column p with
  | empty | text | newline | lineStart | typeGap | separator | malformed => rfl
  | append first second ih ih' =>
    simp only [settle, run, Outcome.andThen, ih]
    split
    · rw [← ih', run_scope]
    · rfl
  | nested body ih =>
    have hbody := ih column (p.mapWriter (·.indent))
    rw [show (p.mapWriter (·.indent)).scope = p.scope from rfl] at hbody
    simp only [settle, run, hbody]
  | aligned body ih =>
    have hbody := fun w column => ih column { p with writer := w }
    simp only [show ∀ w, Pass.scope { p with writer := w } = p.scope from fun _ => rfl] at hbody
    simp only [settle, run, hbody]
  | node key body ih =>
    have hbody := ih column (p.enter key).2
    rw [Pass.scope_enter] at hbody
    simp only [settle, run, hbody]
  | synthetic key body ih =>
    have hbody := ih column (p.markSynthetic key)
    rw [Pass.scope_markSynthetic] at hbody
    simp only [settle, run, hbody]
  | inside scope body ih =>
    have hbody := ih column (p.pushScope scope)
    rw [Pass.scope_pushScope] at hbody
    simp only [settle, run, hbody]
  | perScope body ih => exact ih p.scope column p
  | unsupported gap remark ih => simp only [settle, run, ih]

/-- Documents that are the same outside any type are rendered the same. -/
theorem render_of_settle {d d' : Doc} (h : d.settle none = d'.settle none) (options : Options) :
    d.render options = d'.render options := by
  have hrun : ∀ d : Doc, (d.settle none).write options (.initial options) =
      d.write options (.initial options) := fun d => run_settle options d 0 (.initial options)
  rw [render, render, ← hrun d, ← hrun d', h]

end Doc

/-! ### Requirements -/

/-- A member without the statements that are not written for lack of a body. -/
def MemberForm.requirement (d : Dialect) : MemberForm → MemberForm
  | .property p =>
    match d with
    | .csharp => .property p
    | .swift _ => .property p.signature
  | .event e =>
    match d, e.add, e.remove with
    | .csharp, some _, some _ => .event e
    | _, _, _ => .event e.signature
  | .nestedType t => .nestedType t
  | form => form.signature

def Member.requirement (d : Dialect) (m : Member) : Member :=
  { m with form := m.form.requirement d }

/-- The member has no body of its own in the given type. -/
def Member.isRequirement (d : Dialect) (scope : TypeScope) (m : Member) : Bool :=
  match d with
  | .csharp => scope.isInterface || m.virtuality == .abstract
  | .swift _ => scope.isInterface

def ClassBody.mapMembers (f : Member → Member) (body : ClassBody) : ClassBody :=
  { body with members := body.members.map f }

def TypeDefinitionForm.mapMembers (f : Member → Member) : TypeDefinitionForm → TypeDefinitionForm
  | .classType body => .classType (body.mapMembers f)
  | .structType body => .structType (body.mapMembers f)
  | .interfaceType body => .interfaceType (body.mapMembers f)
  | .extensionType body => .extensionType (body.mapMembers f)
  | form => form

/-- A type definition whose members without bodies of their own are requirements. Types nested in
it stay as they are. -/
def TypeDefinition.requirements (d : Dialect) (t : TypeDefinition) : TypeDefinition :=
  { t with
    form := t.form.mapMembers fun m =>
      if m.isRequirement d (.of t) then m.requirement d else m }

theorem TypeScope.of_requirements (d : Dialect) (t : TypeDefinition) :
    TypeScope.of (t.requirements d) = TypeScope.of t := by
  obtain ⟨_, _, _, form⟩ := t
  cases form <;> rfl

theorem Member.isField_requirement (d : Dialect) (m : Member) :
    (m.requirement d).isField = m.isField := by
  obtain ⟨_, _, _, _, _, form⟩ := m
  cases form with
  | property | event =>
    rw [requirement]
    unfold MemberForm.requirement
    dsimp only
    split <;> rfl
  | _ => rfl

section

variable {l : Language} {c : Context} {scope : Option TypeScope} {m m' : Member}

/-- A member is written the same if its rule gives the same. -/
theorem Language.memberNode_settle (hk : m'.key = m.key) (hi : m'.info = m.info)
    (h : (l.memberRule c m').settle scope = (l.memberRule c m).settle scope) :
    (l.memberNode c m').settle scope = (l.memberNode c m).settle scope := by
  unfold Language.memberNode Language.guarded
  rw [hk, hi]
  cases m.info.condition <;> simp [h]

/-- A type definition is written the same if its rule gives the same inside it. -/
theorem Language.definitionNode_settle {t t' : TypeDefinition} (hk : t'.key = t.key)
    (hi : t'.info = t.info) (hs : TypeScope.of t' = .of t)
    (h : (l.definitionRule c t').settle (some (.of t)) =
      (l.definitionRule c t).settle (some (.of t))) :
    (l.definitionNode c t').settle scope = (l.definitionNode c t).settle scope := by
  unfold Language.definitionNode Language.guarded
  rw [hk, hi, hs]
  cases t.info.condition <;> simp [h]

/-- A list of members is written the same if each member is, and the same stands between them. -/
theorem Context.Lists.settle {doc : List Member → Doc} {gap : Member → Member → Doc}
    {f : Member → Member} (hdoc : c.Lists gap doc)
    (hgap : ∀ m next, gap (f m) (f next) = gap m next)
    (hf : ∀ m, (c.member (f m)).settle scope = (c.member m).settle scope) (ms : List Member) :
    (doc (ms.map f)).settle scope = (doc ms).settle scope := by
  refine hdoc.map_congr (R := fun d d' => d.settle scope = d'.settle scope) (fun _ => rfl)
    (fun _ _ _ _ h h' => ?_) hgap hf ms
  rw [settle_append, settle_append, h, h']

end

/-! ### C# -/

namespace CSharp

variable {c : Context} {scope : TypeScope} {m : Member}

theorem methodBody_settle (h : m.isRequirement .csharp scope = true) (b : MethodBody) :
    (methodBody c m b).settle (some scope) = line ";" := by
  have hbody : (c.setting.definitionOnly || b.external ||
      (some scope).any TypeScope.isInterface || m.virtuality == .abstract) = true := by
    rw [Bool.or_assoc]
    exact Bool.or_eq_true_iff.2 (.inr h)
  simp only [methodBody, settle_perScope, hbody, if_true, settle_line]

/-- The rule for a member without a body of its own gives the same for the requirement. -/
theorem memberRule_settle (h : m.isRequirement .csharp scope = true) :
    (Language.csharp.memberRule c (m.requirement .csharp)).settle (some scope) =
      (Language.csharp.memberRule c m).settle (some scope) := by
  have h' : (m.requirement .csharp).isRequirement .csharp scope = true := h
  have hbody := methodBody_settle (c := c) h
  have hbody' := methodBody_settle (c := c) h'
  obtain ⟨id, name, info, virtuality, isStatic, form⟩ := m
  cases form with
  | constructor b | finalizer b | method b | customOperator _ b =>
    simp only [Member.requirement, MemberForm.requirement, MemberForm.signature] at hbody' ⊢
    simp only [Language.memberRule, Language.csharp, members, method, customOperator,
      settle_append, hbody, hbody']
    rfl
  | event e =>
    obtain ⟨type, add, remove⟩ := e
    cases add <;> cases remove <;> rfl
  | destructor | field | property | nestedType => rfl

end CSharp

/-! ### Swift -/

namespace Swift

variable {lowercaseCases : Bool} {c : Context} {scope : TypeScope} {m : Member}

theorem functionBody_settle (h : scope.isInterface = true) (b : MethodBody) :
    (functionBody c b).settle (some scope) = newline := by
  have hbody : (c.setting.definitionOnly || b.external ||
      (some scope).any TypeScope.isInterface) = true := Bool.or_eq_true_iff.2 (.inr h)
  simp only [functionBody, settle_perScope, hbody, if_true]
  rfl

theorem property_settle (h : scope.isInterface = true) (m m' : Member) (p : PropertyMember)
    (hm : memberModifiers m' = memberModifiers m) (hn : m'.name = m.name) :
    (property c m' p.signature).settle (some scope) = (property c m p).settle (some scope) := by
  obtain ⟨-, -, hsettable⟩ := p.accessors_signature
  have hhead : propertyHead c m' p.signature = propertyHead c m p := by
    simp only [propertyHead, hm, hn]
    rfl
  have hscope : (some scope).any TypeScope.isInterface = true := h
  simp only [property, hhead, settle_append, settle_perScope, hscope, Bool.true_or, if_true,
    hsettable]

theorem memberRule_settle (h : scope.isInterface = true) :
    ((Language.swift lowercaseCases).memberRule c
        (m.requirement (.swift lowercaseCases))).settle (some scope) =
      ((Language.swift lowercaseCases).memberRule c m).settle (some scope) := by
  have hbody := functionBody_settle (c := c) h
  obtain ⟨id, name, info, virtuality, isStatic, form⟩ := m
  cases form with
  | constructor b | method b =>
    simp only [Member.requirement, MemberForm.requirement, MemberForm.signature,
      Language.memberRule, Language.swift, members, constructor, method, settle_append, hbody]
    rfl
  | destructor b | finalizer b =>
    simp only [Member.requirement, MemberForm.requirement, MemberForm.signature,
      Language.memberRule, Language.swift, members, destructor, settle_append, hbody]
  | customOperator operator b =>
    simp only [Member.requirement, MemberForm.requirement, MemberForm.signature,
      Language.memberRule, Language.swift, members, customOperator]
    cases operatorSymbol operator with
    | none => rfl
    | some symbol =>
      simp only [settle_append, hbody]
      rfl
  | property p => exact property_settle h _ _ p rfl rfl
  | event | field | nestedType => rfl

end Swift

/-! ### Type definitions -/

namespace Dialect

variable {c : Context} {m : Member} {t : TypeDefinition}

theorem memberRule_settle (d : Dialect) {scope : TypeScope} (h : m.isRequirement d scope = true) :
    (d.language.memberRule c (m.requirement d)).settle (some scope) =
      (d.language.memberRule c m).settle (some scope) := by
  cases d with
  | csharp => exact CSharp.memberRule_settle h
  | swift => exact Swift.memberRule_settle h

/-- The rule for a type definition gives the same when its members are written the same. -/
theorem definitionRule_settle (d : Dialect) {f : Member → Member} {scope : Option TypeScope}
    (hfield : ∀ m, (f m).isField = m.isField)
    (hf : ∀ m, (c.member (f m)).settle scope = (c.member m).settle scope) :
    (d.language.definitionRule c { t with form := t.form.mapMembers f }).settle scope =
      (d.language.definitionRule c t).settle scope := by
  obtain ⟨id, name, info, form⟩ := t
  cases d with
  | csharp =>
    have hlist : ∀ ms, (CSharp.memberList c (ms.map f)).settle scope =
        (CSharp.memberList c ms).settle scope :=
      (CSharp.memberList_lists c).settle (fun m next => by rw [hfield, hfield]) hf
    cases form with
    | classType body | structType body | interfaceType body =>
      have hbody := hlist body.members
      simp only [TypeDefinitionForm.mapMembers, ClassBody.mapMembers, language,
        Language.definitionRule, Language.csharp, CSharp.definitions, CSharp.classLike,
        Brace.braced, settle_append, settle_nested, hbody]
    | extensionType | aliasType | enumeration | blockType => rfl
  | swift =>
    have hlist : ∀ ms, (Swift.memberList c (ms.map f)).settle scope =
        (Swift.memberList c ms).settle scope :=
      (Swift.memberList_lists c).settle (fun _ _ => rfl) hf
    cases form with
    | classType body | structType body | interfaceType body | extensionType body =>
      have hbody := hlist body.members
      simp only [TypeDefinitionForm.mapMembers, ClassBody.mapMembers, language,
        Language.definitionRule, Language.swift, Swift.definitions, Swift.classType,
        Swift.extensionType, Swift.classLike, Swift.braces, settle_append, settle_nested, hbody]
    | aliasType | enumeration | blockType => rfl

/-- A context writes a type definition as it writes the one with requirements. -/
theorem requirements_settle (d : Dialect) (setting : Setting) (k : Nat) (t : TypeDefinition)
    (scope : Option TypeScope) :
    ((d.language.context setting k).typeDefinition (t.requirements d)).settle scope =
      ((d.language.context setting k).typeDefinition t).settle scope := by
  cases k with
  | zero => rfl
  | succ k =>
    have hmember : ∀ m : Member, m.isRequirement d (.of t) = true →
        ((d.language.context setting k).member (m.requirement d)).settle (some (.of t)) =
          ((d.language.context setting k).member m).settle (some (.of t)) := by
      intro m hm
      cases k with
      | zero => rfl
      | succ k => exact Language.memberNode_settle rfl rfl (d.memberRule_settle hm)
    have hrule : (d.language.definitionRule (d.language.context setting k)
        (t.requirements d)).settle (some (.of t)) =
          (d.language.definitionRule (d.language.context setting k) t).settle (some (.of t)) := by
      apply d.definitionRule_settle
      · intro m
        split
        · exact m.isField_requirement d
        · rfl
      · intro m
        split
        · next hm => exact hmember m hm
        · rfl
    exact Language.definitionNode_settle rfl rfl (TypeScope.of_requirements d t) hrule

/-- Type definitions that differ only in the statements of members without bodies of their own are
rendered the same: with the same text and the same spans, or the same error. The members of an
interface have no bodies of their own, and in C# neither have abstract members; there the accessors
of properties and of events that have both are written nevertheless. -/
theorem requirements_have_no_bodies (d : Dialect) {t t' : TypeDefinition}
    (h : t.requirements d = t'.requirements d) (home : Option CodeUnit) (options : Options) :
    (Request.definition t home false).render d.language options =
      (Request.definition t' home false).render d.language options := by
  -- The trees differ in size, and the contexts of their documents in depth.
  have hdoc : ∀ t : TypeDefinition,
      (d.language.definitionDoc (.of options home false) t).settle none =
        (d.language.definitionDoc (.of options home false) (t.requirements d)).settle none := by
    intro t
    let k := max t.size (t.requirements d).size
    have hreach : ∀ u : TypeDefinition, u.size ≤ k →
        d.language.definitionDoc (.of options home false) u =
          (d.language.context (.of options home false) k).typeDefinition u := fun u hu =>
      d.composes.doc_context _ (.definition u) (Nat.le_of_eq u.size_outline)
        (u.size_outline ▸ hu)
    rw [hreach t (Nat.le_max_left ..), hreach _ (Nat.le_max_right ..), d.requirements_settle]
  apply render_of_settle
  show (d.language.definitionDoc _ t).settle none = (d.language.definitionDoc _ t').settle none
  rw [hdoc t, hdoc t', h]

end Dialect

namespace TypeDefinition

/-- An abstract class with an abstract method, which has the given statements. -/
def shape (statements : List Statement) : TypeDefinition :=
  let info : DeclarationInfo := ⟨.everyone, none, [], none⟩
  let draw : Member :=
    ⟨1, "Draw", info, .abstract, false, .method ⟨[], [], none, statements, false, false, false⟩⟩
  ⟨1, "Shape", info, .classType ⟨[], [], [], [draw], false, false, true, false⟩⟩

theorem shape_has_no_bodies :
    let faulty : Statement := ⟨1, .returning (some ⟨1, .integer 5 7⟩)⟩
    (shape [faulty]).requirements .csharp = (shape []).requirements .csharp ∧
      ∃ out, (Request.definition (shape [faulty]) none false).render .csharp .initial = .ok out ∧
        (Request.definition (shape []) none false).render .csharp .initial = .ok out := by
  intro faulty
  have h : (shape [faulty]).requirements .csharp = (shape []).requirements .csharp := rfl
  obtain ⟨out, hout⟩ : ∃ out,
      (Request.definition (shape []) none false).render .csharp .initial = .ok out :=
    Doc.exists_render_iff.2 rfl
  have hsame := Dialect.requirements_have_no_bodies .csharp h none .initial
  exact ⟨h, out, hsame.trans hout, hout⟩

/-- An interface with a property, whose getter has the given statements. -/
def named (statements : List Statement) : TypeDefinition :=
  let info : DeclarationInfo := ⟨.unspecified, none, [], none⟩
  let name : Member :=
    ⟨1, "Name", info, .none, false,
      .property ⟨.ofForm 1 (.predefined .string), [], some statements, none, false, none⟩⟩
  ⟨1, "INamed", info, .interfaceType ⟨[], [], [], [name], false, false, false, false⟩⟩

/-- The getter of a property is written in an interface, with its statements. -/
theorem named_has_body :
    ∃ out out', (Request.definition (named [⟨1, .returning none⟩]) none false).render .csharp
        .initial = .ok out ∧
      (Request.definition (named []) none false).render .csharp .initial = .ok out' ∧
      out.text ≠ out'.text :=
  ⟨_, _, rfl, rfl, by decide +kernel⟩

end TypeDefinition

end SourcePrinter
