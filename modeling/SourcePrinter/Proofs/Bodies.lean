import SourcePrinter.Proofs.Alone
import SourcePrinter.Proofs.Complete

/-! No body is lost: under the strict policy, a rendering of a class or structure that succeeds has
a span for what lies in the bodies of its members, at any depth. C# loses the accessor of an event
that has no other. -/

namespace SourcePrinter

open Doc

/-! ### Members and their bodies -/

/-- A member of a type definition, or of one nested in it. -/
inductive Member.Within (m : Member) : TypeDefinition → Prop where
  | direct {t : TypeDefinition} : m ∈ t.members → m.Within t
  | nested {t u : TypeDefinition} {n : Member} :
    n ∈ t.members → n.form = .nestedType u → m.Within u → m.Within t

namespace Member

/-- The statements of a function, or of each accessor that is there. -/
def blocks (m : Member) : List (List Statement) :=
  match m.form with
  | .constructor b | .destructor b | .finalizer b | .method b | .customOperator _ b =>
    [b.statements]
  | .property p => p.getter.toList ++ p.setter.toList
  | .event e => e.add.toList ++ e.remove.toList
  | .field _ | .nestedType _ => []

/-- A member with bodies of its own, and no interface. -/
structure Concrete (m : Member) : Prop where
  bound : m.virtuality ≠ .abstract
  internal : ∀ b ∈ m.body?, b.external = false
  nested : ∀ u, m.form = .nestedType u → (TypeScope.of u).isInterface = false

/-- An event with one of its two accessors. -/
def HasLoneAccessor (m : Member) : Prop :=
  ∃ e, m.form = .event e ∧ e.add.isSome ≠ e.remove.isSome

theorem size_block {m : Member} {ss : List Statement} (h : ss ∈ m.blocks) :
    (Outline.inOrder (statementOutlines ss)).size < m.outline.size := by
  have haccessor : ∀ statements : Option (List Statement), ss ∈ statements.toList →
      Outline.inOrder (statementOutlines ss) = .inOrder (statementOutlines? statements) := by
    intro statements hs
    rw [Option.mem_toList.1 hs]
    rfl
  have hform : (Outline.inOrder (statementOutlines ss)).size ≤ m.form.outline.size := by
    obtain ⟨id, name, info, virtuality, isStatic, form⟩ := m
    cases form with
    | constructor b | destructor b | finalizer b | method b | customOperator _ b =>
      rw [List.mem_singleton.1 h]
      simp only [MemberForm.outline, MethodBody.outline, Outline.size]
      omega
    | property p =>
      simp only [MemberForm.outline, PropertyMember.outline, Outline.size]
      rcases List.mem_append.1 h with h | h
      · rw [haccessor _ h]
        omega
      · rw [haccessor _ h]
        omega
    | event e =>
      simp only [MemberForm.outline, EventMember.outline, Outline.size]
      rcases List.mem_append.1 h with h | h
      · rw [haccessor _ h]
        omega
      · rw [haccessor _ h]
        omega
    | field | nestedType => cases h
  rw [m.outline_eq, Outline.size, Outline.size, Outline.size]
  omega

end Member

/-- A property with an accessor is not stored. -/
theorem PropertyMember.isStored_of_accessor {p : PropertyMember} {ss : List Statement}
    (h : ss ∈ p.getter.toList ++ p.setter.toList) : p.isStored = false := by
  obtain ⟨_, _, getter, setter, _, _⟩ := p
  cases getter with
  | some => rfl
  | none =>
    cases setter with
    | some => rfl
    | none => cases h

/-! ### Events around a body -/

namespace Events.Shows

variable {e a b : Events} {o : Outline}

theorem of_failure (h : e.failure true ≠ none) : e.Shows o := fun _ hf => absurd hf h

theorem of_left (h : a.Shows o) : (a ++ b).Shows o := by
  intro hkeys hf synthetic hs m hm
  rw [failure_append, Option.or_eq_none_iff] at hf
  rw [recorded_append, Forest.labels_append, List.mem_append]
  exact .inl (h hkeys hf.1 synthetic hs m hm)

theorem of_right (h : b.Shows o) : (a ++ b).Shows o := by
  intro hkeys hf synthetic hs m hm
  rw [failure_append, Option.or_eq_none_iff] at hf
  rw [recorded_append, Forest.labels_append, List.mem_append]
  exact .inr (h hkeys hf.2 synthetic hs m hm)

/-- What a declaration shows is shown by its node. -/
theorem inside {k : NodeKey} (h : e.Shows o) (hk : k ≠ Language.endless.key) :
    (Events.node k e .done).Shows o := by
  intro hkeys hf synthetic hs m hm
  have hfirst : k ∉ synthetic := fun hmem => hk (hs k hmem)
  have hinner := h hkeys (Option.or_eq_none_iff.1 hf).1 synthetic hs m hm
  rw [recorded, if_neg hfirst, Forest.labels, List.mem_cons, List.mem_append]
  exact .inr (.inl hinner)

end Events.Shows

section

variable {l : Language} {c : Context} {m : Member} {t : TypeDefinition} {d : Doc} {o : Outline}
variable {ss : List Statement} {scope : Option TypeScope}

theorem Language.setting_context (l : Language) (setting : Setting) (depth : Nat) :
    (l.context setting depth).setting = setting := by
  induction depth with
  | zero => rfl
  | succ depth ih => exact ih

theorem Language.guarded_shows (condition : Option Expression) (h : (d.events scope).Shows o) :
    ((l.guarded c condition d).events scope).Shows o := by
  cases condition with
  | none => exact h
  | some e =>
    simp only [Language.guarded, events_append]
    exact .of_left (.of_left (.of_left (.of_right h)))

/-- A member shows what its rule shows. -/
theorem Language.memberNode_shows (h : ((l.memberRule c m).events scope).Shows o) :
    ((l.memberNode c m).events scope).Shows o := by
  apply Language.guarded_shows
  rw [events_append, events_node, events_append]
  exact .of_left (.inside (.of_right h) (by intro hk; cases hk))

/-- A type definition shows what its rule shows inside it. -/
theorem Language.definitionNode_shows
    (h : ((l.definitionRule c t).events (some (.of t))).Shows o) :
    ((l.definitionNode c t).events scope).Shows o := by
  apply Language.guarded_shows
  rw [events_append, events_node, events_append, events_inside]
  exact .of_left (.inside (.of_right h) (by intro hk; cases hk))

/-- A list of members shows what each of them shows. -/
theorem Context.Lists.shows {doc : List Member → Doc} {gap : Member → Member → Doc}
    (hdoc : c.Lists gap doc) {ms : List Member} (hm : m ∈ ms)
    (h : ((c.member m).events scope).Shows o) : ((doc ms).events scope).Shows o := by
  refine hdoc.induct (P := fun ms d => m ∈ ms → (d.events scope).Shows o) nofun (fun n hn => ?_)
    (fun n next rest ih hn => ?_) ms hm
  · rw [← List.mem_singleton.1 hn]
    exact h
  · rw [events_append, events_append]
    rcases List.mem_cons.1 hn with rfl | hn
    · exact .of_left (.of_left h)
    · exact .of_right (ih hn)

/-- Two accessors show the statements of each that is there. -/
theorem Context.shows_accessors {get set : List Statement → Doc}
    (hget : ((c.statements ss).events scope).Shows o → ((get ss).events scope).Shows o)
    (hset : ((c.statements ss).events scope).Shows o → ((set ss).events scope).Shows o)
    {getter setter : Option (List Statement)} (hss : ss ∈ getter.toList ++ setter.toList)
    (h : ((c.statements ss).events scope).Shows o) :
    ((whenSome getter get ++ whenSome setter set).events scope).Shows o := by
  rw [events_append]
  rcases List.mem_append.1 hss with hss | hss
  · obtain rfl := Option.mem_toList.1 hss
    exact .of_left (hget h)
  · obtain rfl := Option.mem_toList.1 hss
    exact .of_right (hset h)

end

/-! ### C# -/

namespace CSharp

variable {c : Context} {m : Member} {t : TypeDefinition} {o : Outline} {ss : List Statement}
variable {scope : Option TypeScope}

theorem events_block (c : Context) (ss : List Statement) (scope : Option TypeScope) :
    (Brace.block c ss).events scope = (c.statements ss).events scope := by
  simp [Brace.block, Brace.braced]

theorem accessor_shows (keyword : String) (h : ((c.statements ss).events scope).Shows o) :
    ((accessor c keyword ss).events scope).Shows o := by
  rw [accessor, events_append, events_block]
  exact .of_right h

theorem methodBody_shows (hfull : c.setting.definitionOnly = false)
    (hscope : scope.any TypeScope.isInterface = false) (hm : m.Concrete) {b : MethodBody}
    (hb : b.external = false) (h : ((c.statements b.statements).events scope).Shows o) :
    ((methodBody c m b).events scope).Shows o := by
  have hv : (m.virtuality == Virtuality.abstract) = false := beq_eq_false_iff_ne.2 hm.bound
  have hbody : (methodBody c m b).events scope = (c.statements b.statements).events scope := by
    simp [methodBody, hfull, hscope, hb, hv, events_block]
  rw [hbody]
  exact h

/-- The rule for a member shows each body that it has, if no accessor is alone. -/
theorem memberRule_shows (hfull : c.setting.definitionOnly = false)
    (hscope : scope.any TypeScope.isInterface = false) (hm : m.Concrete)
    (hpaired : ¬ m.HasLoneAccessor) (hss : ss ∈ m.blocks)
    (h : ((c.statements ss).events scope).Shows o) :
    ((Language.csharp.memberRule c m).events scope).Shows o := by
  obtain ⟨id, name, info, virtuality, isStatic, form⟩ := m
  cases form with
  | constructor b | finalizer b | method b | customOperator _ b =>
    obtain rfl : ss = b.statements := List.mem_singleton.1 hss
    exact .of_right (methodBody_shows hfull hscope hm (hm.internal b rfl) h)
  | destructor b => exact .of_failure (Option.some_ne_none _)
  | property p =>
    have hstored : p.isStored = false := p.isStored_of_accessor hss
    have haccessors := Context.shows_accessors (accessor_shows "get") (accessor_shows "set") hss h
    simp only [Language.memberRule, Language.csharp, members, property, hstored, hfull,
      Bool.or_self, Bool.false_eq_true, if_false]
    exact .of_right (.of_right (.of_left (.of_right haccessors)))
  | event e =>
    obtain ⟨type, add, remove⟩ := e
    cases add with
    | none =>
      cases remove with
      | none => cases hss
      | some remove => exact absurd ⟨_, rfl, by simp⟩ hpaired
    | some add =>
      cases remove with
      | none => exact absurd ⟨_, rfl, by simp⟩ hpaired
      | some remove =>
        have haccessors := Context.shows_accessors (accessor_shows "add") (accessor_shows "remove") hss h
        simp only [Language.memberRule, Language.csharp, members, event, hfull,
          Bool.false_eq_true, if_false]
        exact .of_right (.of_right (.of_left (.of_right haccessors)))
  | field | nestedType => cases hss

/-- The rule for a type definition shows what each of its members shows. -/
theorem definitionRule_shows (hm : m ∈ t.members) (h : ((c.member m).events scope).Shows o) :
    ((Language.csharp.definitionRule c t).events scope).Shows o := by
  have hlist : ∀ (keyword : String) (body : ClassBody), m ∈ body.members →
      ((classLike c keyword t body).events scope).Shows o := by
    intro keyword body hm
    have hmembers : ((memberList c body.members).events scope).Shows o :=
      (memberList_lists c).shows hm h
    exact .of_right (.of_left (.of_right hmembers))
  obtain ⟨id, name, info, form⟩ := t
  cases form with
  | classType body | structType body | interfaceType body => exact hlist _ body hm
  | extensionType => exact .of_failure (Option.some_ne_none _)
  | aliasType | enumeration | blockType => cases hm

end CSharp

/-! ### Swift -/

namespace Swift

variable {lowercaseCases : Bool} {c : Context} {m : Member} {t : TypeDefinition} {o : Outline}
variable {ss : List Statement} {scope : Option TypeScope}

theorem events_braces (d : Doc) (scope : Option TypeScope) :
    (braces d).events scope = d.events scope := by
  simp [braces]

theorem accessor_shows (keyword : String) (h : ((c.statements ss).events scope).Shows o) :
    ((accessor c keyword ss).events scope).Shows o := by
  rw [accessor, events_append, events_append, openStatements, events_braces]
  exact .of_left (.of_right h)

theorem functionBody_shows (hfull : c.setting.definitionOnly = false)
    (hscope : scope.any TypeScope.isInterface = false) {b : MethodBody} (hb : b.external = false)
    (h : ((c.statements b.statements).events scope).Shows o) :
    ((functionBody c b).events scope).Shows o := by
  have hbody : (functionBody c b).events scope = (c.statements b.statements).events scope := by
    simp [functionBody, hfull, hscope, hb, openStatements, events_braces]
  rw [hbody]
  exact h

/-- The rule for a member shows each body that it has. -/
theorem memberRule_shows (hfull : c.setting.definitionOnly = false)
    (hscope : scope.any TypeScope.isInterface = false) (hm : m.Concrete) (hss : ss ∈ m.blocks)
    (h : ((c.statements ss).events scope).Shows o) :
    (((Language.swift lowercaseCases).memberRule c m).events scope).Shows o := by
  obtain ⟨id, name, info, virtuality, isStatic, form⟩ := m
  cases form with
  | constructor b | destructor b | finalizer b | method b =>
    obtain rfl : ss = b.statements := List.mem_singleton.1 hss
    exact .of_right (functionBody_shows hfull hscope (hm.internal b rfl) h)
  | customOperator operator b =>
    obtain rfl : ss = b.statements := List.mem_singleton.1 hss
    have hbody := functionBody_shows hfull hscope (hm.internal b rfl) h
    cases operator with
    | implicitConversion | explicitConversion => exact .of_failure (Option.some_ne_none _)
    | _ => exact .of_right hbody
  | property p =>
    have hstored : p.isStored = false := p.isStored_of_accessor hss
    have haccessors := Context.shows_accessors (accessor_shows "get") (accessor_shows "set") hss h
    simp only [Language.memberRule, Language.swift, members, property, hstored, hfull, hscope,
      Bool.or_self, Bool.false_and, Bool.false_eq_true, if_false, events_append, events_perScope,
      events_braces]
    exact .of_right (.of_left haccessors)
  | event e => exact .of_failure (Option.some_ne_none _)
  | field | nestedType => cases hss

/-- The rule for a type definition shows what each of its members shows. -/
theorem definitionRule_shows (hm : m ∈ t.members) (h : ((c.member m).events scope).Shows o) :
    (((Language.swift lowercaseCases).definitionRule c t).events scope).Shows o := by
  have hlist : ∀ ms, m ∈ ms → ((braces (memberList c ms)).events scope).Shows o := by
    intro ms hm
    rw [events_braces]
    exact (memberList_lists c).shows hm h
  obtain ⟨id, name, info, form⟩ := t
  cases form with
  | classType body | structType body | interfaceType body | extensionType body =>
    exact .of_left (.of_right (hlist body.members hm))
  | aliasType | enumeration | blockType => cases hm

end Swift

/-! ### Members at any depth -/

namespace Dialect

variable {m n : Member} {t : TypeDefinition} {c : Context} {o : Outline} {ss : List Statement}
variable {scope : Option TypeScope}

theorem memberRule_shows (d : Dialect) (hfull : c.setting.definitionOnly = false)
    (hscope : scope.any TypeScope.isInterface = false) (hm : m.Concrete)
    (hpaired : d = .csharp → ¬ m.HasLoneAccessor) (hss : ss ∈ m.blocks)
    (h : ((c.statements ss).events scope).Shows o) :
    ((d.language.memberRule c m).events scope).Shows o := by
  cases d with
  | csharp => exact CSharp.memberRule_shows hfull hscope hm (hpaired rfl) hss h
  | swift => exact Swift.memberRule_shows hfull hscope hm hss h

theorem definitionRule_shows (d : Dialect) (hm : m ∈ t.members)
    (h : ((c.member m).events scope).Shows o) :
    ((d.language.definitionRule c t).events scope).Shows o := by
  cases d with
  | csharp => exact CSharp.definitionRule_shows hm h
  | swift => exact Swift.definitionRule_shows hm h

/-- A context shows, with a member, what the rule for the member shows in a context of a level
less. -/
theorem definition_shows (d : Dialect) (setting : Setting) (hm : m ∈ t.members) {k : Nat}
    (h : ((d.language.memberRule (d.language.context setting k) m).events
      (some (.of t))).Shows o) :
    (((d.language.context setting (k + 2)).typeDefinition t).events scope).Shows o :=
  Language.definitionNode_shows (d.definitionRule_shows hm (Language.memberNode_shows h))

/-- A context that reaches a type definition shows the bodies of the members in it. -/
theorem within_shows (d : Dialect) {setting : Setting} (hfull : setting.definitionOnly = false)
    (hm : m.Within t) (ht : (TypeScope.of t).isInterface = false)
    (hall : ∀ n : Member, n.Within t → n.Concrete) (hpaired : d = .csharp → ¬ m.HasLoneAccessor)
    (hss : ss ∈ m.blocks) {k : Nat} (hk : t.size ≤ k) (scope : Option TypeScope) :
    (((d.language.context setting k).typeDefinition t).events scope).Shows
      (.inOrder (statementOutlines ss)) := by
  -- The members of a nested type lie two contexts below it: its node, and that of the member.
  have hdepth : ∀ {t : TypeDefinition} {n : Member} {k : Nat}, n ∈ t.members → t.size ≤ k →
      ∃ j, k = j + 2 ∧ n.outline.size ≤ j + 1 := by
    intro t n k hn hk
    have hsize := TypeDefinition.size_member hn
    have hpos : 0 < n.outline.size := (Part.member n).size_pos
    exact ⟨k - 2, by omega, by omega⟩
  induction hm generalizing k scope with
  | @direct t hmem =>
    obtain ⟨j, rfl, hj⟩ := hdepth hmem hk
    have hlt := Member.size_block hss
    have hstatements : Composed d.language.hooks (.of d.fault?) True (d.language.context setting j)
        (d.language.context setting j) (.member m) _ _ _ := .statements ss
    refine d.definition_shows setting hmem ?_
    refine d.memberRule_shows ?_ ht (hall m (.direct hmem)) hpaired hss ?_
    · rw [d.language.setting_context]
      exact hfull
    · exact hstatements.shows (d.composes.context_shows setting j) (by omega) _
  | @nested t u n hn hform _ ih =>
    obtain ⟨j, rfl, hj⟩ := hdepth hn hk
    have hu : u.size ≤ j := by
      rw [n.outline_eq, Outline.size, Outline.size, Outline.size, hform, MemberForm.outline,
        u.size_outline] at hj
      omega
    refine d.definition_shows setting hn ?_
    simp only [Language.memberRule, hform]
    exact ih ((hall n (.direct hn)).nested u hform)
      (fun n' hn' => hall n' (.nested hn hform hn')) hu _

/-- Under the strict policy, a rendering of a type definition that is no interface has a span for
every statement, expression and parameter in a body of a member of it, at any depth, that does not
lie in a type reference. The members are neither abstract nor external, and no interface is nested
in the type. In C# an event needs both accessors for either to be written. -/
theorem bodies_are_written (d : Dialect) {options : Options} (hs : options.strict = true)
    {home : Option CodeUnit} {out : Rendering} (ht : (TypeScope.of t).isInterface = false)
    (hall : ∀ n : Member, n.Within t → n.Concrete)
    (h : (Request.definition t home false).render d.language options = .ok out)
    (hm : m.Within t) (hpaired : d = .csharp → ¬ m.HasLoneAccessor) (hss : ss ∈ m.blocks)
    (hkeys : ∀ n ∈ (Outline.inOrder (statementOutlines ss)).own, n.key ≠ Language.endless.key) :
    ∀ n ∈ (Outline.inOrder (statementOutlines ss)).own,
      ∃ span, out.spans.get? n.key = some span := by
  intro n hn
  have hf := Doc.exists_render_iff.1 ⟨out, h⟩
  rw [hs] at hf
  have hfull : (Setting.of options home false).definitionOnly = false := rfl
  have hshows := d.within_shows hfull hm ht hall hpaired hss (Nat.le_refl t.size) none
  have hmem := hshows hkeys hf [] nofun n hn
  exact Option.isSome_iff_exists.1 ((Doc.isSome_span_iff h n.key).2 hmem)

end Dialect

namespace TypeDefinition

/-- A property of a nested structure, with a getter. -/
def letter : Member :=
  ⟨2, "Letter", ⟨.everyone, none, [], none⟩, .none, false,
    .property ⟨.ofForm 1 (.predefined .string), [],
      some [⟨1, .returning (some ⟨1, .nil⟩)⟩], none, false, none⟩⟩

/-- A class with a structure in it. -/
def mailbox : TypeDefinition :=
  let info : DeclarationInfo := ⟨.everyone, none, [], none⟩
  let slot : TypeDefinition :=
    ⟨2, "Slot", info, .structType ⟨[], [], [], [letter], false, false, false, false⟩⟩
  ⟨1, "Mailbox", info, .classType ⟨[], [], [],
    [⟨1, "Slot", info, .none, false, .nestedType slot⟩], false, false, false, false⟩⟩

theorem mailbox_bodies_are_written :
    ∃ out, (Request.definition mailbox none false).render .csharp
        { Options.initial with strict := true } = .ok out ∧
      letter.Within mailbox ∧ (∀ n : Member, n.Within mailbox → n.Concrete) ∧
      ∀ ss ∈ letter.blocks, ∀ n ∈ (Outline.inOrder (statementOutlines ss)).own,
        ∃ span, out.spans.get? n.key = some span := by
  obtain ⟨out, hout⟩ : ∃ out, (Request.definition mailbox none false).render .csharp
      { Options.initial with strict := true } = .ok out := ⟨_, rfl⟩
  have hwithin : letter.Within mailbox :=
    .nested List.mem_cons_self rfl (.direct List.mem_cons_self)
  have hall : ∀ n : Member, n.Within mailbox → n.Concrete := by
    intro n hn
    cases hn with
    | direct hmem =>
      obtain rfl := List.mem_singleton.1 hmem
      exact ⟨nofun, nofun, fun u hu => MemberForm.nestedType.inj hu ▸ rfl⟩
    | nested hmem hform hn =>
      obtain rfl := List.mem_singleton.1 hmem
      cases hform
      cases hn with
      | direct hmem =>
        obtain rfl := List.mem_singleton.1 hmem
        exact ⟨nofun, nofun, nofun⟩
      | nested hmem hform =>
        obtain rfl := List.mem_singleton.1 hmem
        cases hform
  refine ⟨out, hout, hwithin, hall, fun ss hss => ?_⟩
  have hlone : ¬ letter.HasLoneAccessor := by
    rintro ⟨e, he, -⟩
    cases he
  have hkeys : ∀ ss ∈ letter.blocks, ∀ n ∈ (Outline.inOrder (statementOutlines ss)).own,
      n.key ≠ Language.endless.key := by decide
  exact Dialect.bodies_are_written .csharp rfl rfl hall hout hwithin (fun _ => hlone) hss
    (hkeys ss hss)

/-- An event that can be subscribed to. -/
def rung : Member :=
  ⟨1, "Rung", ⟨.unspecified, none, [], none⟩, .none, false,
    .event ⟨.ofForm 1 (.named ⟨"Handler", none, []⟩), some [⟨1, .returning none⟩], none⟩⟩

/-- A class with an event. -/
def bell : TypeDefinition :=
  ⟨1, "Bell", ⟨.unspecified, none, [], none⟩,
    .classType ⟨[], [], [], [rung], false, false, false, false⟩⟩

/-- The rendering of the class comes to its end without the accessor and its statement. -/
theorem bell_loses_accessor :
    rung.Within bell ∧ (∀ n : Member, n.Within bell → n.Concrete) ∧
      [⟨1, .returning none⟩] ∈ rung.blocks ∧
      ∃ out, (Request.definition bell none false).render .csharp
          { Options.initial with strict := true } = .ok out ∧
        out.text = "class Bell\n\x7b\n    event Handler Rung;\n\x7d\n" ∧
        out.spans.get? (Statement.key ⟨1, .returning none⟩) = none := by
  refine ⟨.direct List.mem_cons_self, ?_, List.mem_cons_self, _, rfl, by decide +kernel, rfl⟩
  intro n hn
  cases hn with
  | direct hmem =>
    obtain rfl := List.mem_singleton.1 hmem
    exact ⟨nofun, nofun, nofun⟩
  | nested hmem hform =>
    obtain rfl := List.mem_singleton.1 hmem
    cases hform

end TypeDefinition

end SourcePrinter
