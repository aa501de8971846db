import SourcePrinter.Proofs.Constructs.CSharp
import SourcePrinter.Proofs.Constructs.Swift

/-! At a depth that reaches all of a declaration, the document of the declaration bears its
constructs. So does the document of a request. -/

namespace SourcePrinter

open Doc

/-! ### Parts of declarations -/

section

variable {m : Reading}

theorem overlooked_member {x : Member} : x.outline.Overlooked m ↔
    (∀ e ∈ x.info.condition, e.outline.Overlooked m) ∧
      (m.Overlooks x.name ∧ (∀ s ∈ x.info.texts, m.Overlooks s) ∧
        ∀ s ∈ x.form.texts, m.Overlooks s) ∧
      x.info.outline.Overlooked m ∧ x.form.outline.Overlooked m := by
  rw [Member.outline_eq, Outline.overlooked_beside, overlooked_expression?,
    Outline.overlooked_node, Outline.overlooked_beside, Node.texts, List.forall_mem_cons,
    List.forall_mem_append]

theorem overlooked_definition {t : TypeDefinition} : t.outline.Overlooked m ↔
    (∀ e ∈ t.info.condition, e.outline.Overlooked m) ∧
      (m.Overlooks t.name ∧ (∀ s ∈ t.info.texts, m.Overlooks s) ∧
        ∀ s ∈ t.form.texts, m.Overlooks s) ∧
      t.info.outline.Overlooked m ∧ t.form.outline.Overlooked m := by
  rw [TypeDefinition.outline_eq, Outline.overlooked_beside, overlooked_expression?,
    Outline.overlooked_node, Outline.overlooked_beside, Node.texts, List.forall_mem_cons,
    List.forall_mem_append]

theorem overlooked_form_member {t : TypeDefinition} (ho : t.form.outline.Overlooked m) {x : Member}
    (hx : x ∈ t.members) : x.outline.Overlooked m := by
  have hbody : ∀ body : ClassBody, body.outline.Overlooked m → x ∈ body.members →
      x.outline.Overlooked m := by
    rintro ⟨generics, ancestors, interfaces, members, _, _, _, _⟩ ho hx
    simp only [ClassBody.outline, Outline.overlooked_beside, memberOutlines_eq] at ho
    exact Outline.overlooked_inOrder.1 ho.2.2.2 x hx
  obtain ⟨id, name, info, form⟩ := t
  cases form with
  | classType body | structType body | interfaceType body | extensionType body =>
    exact hbody body ho hx
  | aliasType | enumeration | blockType => cases hx

end

theorem TypeScope.name_of (t : TypeDefinition) : (TypeScope.of t).name = t.name := by
  unfold TypeScope.of
  split <;> rfl

namespace Dialect

variable (d : Dialect) {m : Reading} {c : Context} {setting : Setting} {depth : Nat}
variable {scope : Option TypeScope} {opened : List Char}

/-! ### Rules -/

section

variable (h : c.Closes m)

include h

theorem attributeLine_closed {a : Attribute} (ho : a.outline.Overlooked m)
    (ht : ∀ s ∈ argumentTexts a.arguments, m.Overlooks s) :
    (d.language.units.attributeLine c a).Closed m := by
  cases d with
  | csharp => exact CSharp.attributeLine_closed h ho ht
  | swift => exact Swift.attributeLine_closed h ho ht

theorem importing_closed {i : Import} (hi : m.Overlooks i.name) :
    (d.language.hooks.importing c i).Closed m := by
  cases d with
  | csharp => exact CSharp.importing_closed h hi
  | swift => exact Swift.importing_closed h hi

theorem memberRule_bears {x : Member} (hx : m.Overlooks x.name) (ho : x.form.outline.Overlooked m)
    (ht : ∀ s ∈ x.form.texts, m.Overlooks s) (hs : ∀ s ∈ scope, m.Overlooks s.name)
    (hn : ∀ t, x.form = .nestedType t →
      Bears d setting m (c.typeDefinition t) scope opened opened (t.constructs d)) :
    Bears d setting m (d.language.memberRule c x) scope opened opened (x.form.constructs d) := by
  by_cases hnested : ∃ t, x.form = .nestedType t
  · obtain ⟨t, hform⟩ := hnested
    rw [Language.memberRule, hform]
    exact hn t hform
  · have hnested : ∀ t, x.form ≠ .nestedType t := fun t hform => hnested ⟨t, hform⟩
    have hforest : x.form.constructs d = .nil := by
      cases hform : x.form with
      | nestedType t => exact absurd hform (hnested t)
      | _ => rfl
    rw [hforest]
    cases d with
    | csharp => exact .code (CSharp.memberRule_read h hx ho ht hnested hs opened)
    | swift => exact .closed (Swift.memberRule_closed h hx ho ht hnested)

theorem definitionRule_bears {t : TypeDefinition} (hname : m.Overlooks t.name)
    (ho : t.form.outline.Overlooked m) (ht : ∀ s ∈ t.form.texts, m.Overlooks s)
    (hm : ∀ x ∈ t.members, ∀ opened,
      Bears d setting m (c.member x) scope opened opened (x.constructs d)) :
    Bears d setting m (d.language.definitionRule c t) scope opened opened (t.form.constructs d) := by
  cases d with
  | csharp => exact CSharp.definitionRule_bears h hname ho ht hm opened
  | swift => exact Swift.definitionRule_bears h hname ho ht hm opened

end

/-- The comment and the attributes of a declaration bear the attributes. -/
theorem preamble_bears {info : DeclarationInfo} (hsize : info.outline.size ≤ depth)
    (ho : info.outline.Overlooked m) (ht : ∀ s ∈ info.texts, m.Overlooks s) :
    Bears d setting m (d.language.preamble (d.language.context setting depth) info) scope opened
      opened info.constructs := by
  have hcloses := d.context_closes m setting depth
  have hcomment := hcloses.documentation? fun s hs => ht s (List.mem_append_left _ hs)
  rw [(d.language.context_speaks setting depth).docComment] at hcomment
  refine .pass hcomment (.concat fun a ha => .construct (k := .mark a) ?_ ?_ (.closed ?_))
  · have hle := Outline.size_le_inOrder (List.mem_map_of_mem (f := Attribute.outline) ha)
    exact Nat.le_trans hle hsize
  · intro e he
    have ha := Outline.overlooked_inOrder.1 ho a ha
    simp only [Attribute.outline, Outline.overlooked_beside] at ha
    exact hcloses.expression (overlooked_expression?.1 ha.1 e he)
  · refine .append (d.attributeLine_closed hcloses ?_ fun s hs => ht s ?_) fun _ _ => rfl
    · exact Outline.overlooked_inOrder.1 ho a ha
    · exact List.mem_append_right _ (List.mem_flatMap.2 ⟨a, ha, hs⟩)

/-- A member bears its constructs if the definitions nested in it do at the depth below. -/
theorem member_bears {x : Member} (hsize : x.outline.size ≤ depth + 1)
    (ho : x.outline.Overlooked m) (hs : ∀ s ∈ scope, m.Overlooks s.name)
    (hnested : ∀ t : TypeDefinition, t.outline.size ≤ depth → t.outline.Overlooked m →
      Bears d setting m ((d.language.context setting depth).typeDefinition t) scope opened opened
        (t.constructs d)) :
    Bears d setting m ((d.language.context setting (depth + 1)).member x) scope opened opened
      (x.constructs d) := by
  have hcloses := d.context_closes m setting depth
  have hreach : (Construct.member x).reach ≤ depth := Nat.sub_le_of_le_add hsize
  obtain ⟨hcondition, ⟨hname, hinfoTexts, hformTexts⟩, hinfo, hform⟩ := overlooked_member.1 ho
  rw [Member.outline_eq] at hsize
  simp only [Outline.size] at hsize
  have hsmall : x.info.outline.size ≤ depth := by omega
  have hpreamble : Bears d setting m _ scope opened opened x.info.constructs :=
    d.preamble_bears hsmall hinfo hinfoTexts
  have hrule : Bears d setting m _ scope opened opened (x.form.constructs d) :=
    d.memberRule_bears hcloses hname hform hformTexts hs fun t ht => by
      rw [ht] at hform hsize
      simp only [MemberForm.outline] at hform hsize
      exact hnested t (by omega) hform
  rw [Member.constructs_eq]
  refine .construct (k := .member x) hreach ?_ (.before (.node (.append hpreamble hrule)) rfl)
  exact fun e he => hcloses.expression (hcondition e he)

/-- A type definition bears its constructs if its members do at the depth below. -/
theorem definition_bears {t : TypeDefinition} (hsize : t.outline.size ≤ depth + 1)
    (ho : t.outline.Overlooked m)
    (hmember : ∀ x : Member, x.outline.size ≤ depth → x.outline.Overlooked m → ∀ opened,
      Bears d setting m ((d.language.context setting depth).member x) (some (.of t)) opened opened
        (x.constructs d)) :
    Bears d setting m ((d.language.context setting (depth + 1)).typeDefinition t) scope opened opened
      (t.constructs d) := by
  have hcloses := d.context_closes m setting depth
  have hreach : (Construct.definition t).reach ≤ depth := Nat.sub_le_of_le_add hsize
  obtain ⟨hcondition, ⟨hname, hinfoTexts, hformTexts⟩, hinfo, hform⟩ := overlooked_definition.1 ho
  have hmembers : ∀ x ∈ t.members, ∀ opened, Bears d setting m
      ((d.language.context setting depth).member x) (some (.of t)) opened opened
      (x.constructs d) := by
    intro x hx
    refine hmember x ?_ (overlooked_form_member hform hx)
    rw [t.size_outline] at hsize
    exact Nat.le_trans (TypeDefinition.size_member hx) (Nat.sub_le_of_le_add hsize)
  rw [TypeDefinition.outline_eq] at hsize
  simp only [Outline.size] at hsize
  have hsmall : t.info.outline.size ≤ depth := by omega
  have hpreamble : Bears d setting m _ scope opened opened t.info.constructs :=
    d.preamble_bears hsmall hinfo hinfoTexts
  have hrule : Bears d setting m _ (some (.of t)) opened opened (t.form.constructs d) :=
    d.definitionRule_bears hcloses hname hform hformTexts hmembers
  rw [TypeDefinition.constructs_eq]
  refine .construct (k := .definition t) hreach ?_
    (.before (.node (.append hpreamble (.inside hrule))) rfl)
  exact fun e he => hcloses.expression (hcondition e he)

/-- A declaration in a context that reaches all of it bears its constructs. The induction is on the
depth of the context. -/
theorem declarations_bear (setting : Setting) (depth : Nat) :
    (∀ x : Member, x.outline.size ≤ depth → x.outline.Overlooked m → ∀ scope opened,
      (∀ s ∈ scope, m.Overlooks s.name) →
      Bears d setting m ((d.language.context setting depth).member x) scope opened opened
        (x.constructs d)) ∧
    ∀ t : TypeDefinition, t.outline.size ≤ depth → t.outline.Overlooked m → ∀ scope opened,
      Bears d setting m ((d.language.context setting depth).typeDefinition t) scope opened opened
        (t.constructs d) := by
  induction depth with
  | zero =>
    refine ⟨fun x hsize => ?_, fun t hsize => ?_⟩
    · rw [Member.outline_eq] at hsize
      simp [Outline.size] at hsize
    · rw [TypeDefinition.outline_eq] at hsize
      simp [Outline.size] at hsize
  | succ depth ih =>
    obtain ⟨hmember, hdefinition⟩ := ih
    refine ⟨fun x hsize ho scope opened hs => ?_, fun t hsize ho scope opened => ?_⟩
    · exact d.member_bears hsize ho hs fun t ht hto => hdefinition t ht hto scope opened
    · refine d.definition_bears hsize ho fun x hx hxo opened => hmember x hx hxo _ opened ?_
      rintro s ⟨⟩
      rw [TypeScope.name_of]
      exact (overlooked_definition.1 ho).2.1.1

/-! ### Units -/

theorem typeList_bears {c : Context} {ts : List TypeDefinition}
    (ht : ∀ t ∈ ts, Bears d setting m (c.typeDefinition t) scope opened opened (t.constructs d))
    (first : Bool) :
    Bears d setting m (Language.typeList c first ts) scope opened opened
      (.join (ts.map (·.constructs d))) := by
  induction ts generalizing first with
  | nil => exact .code rfl
  | cons t more ih =>
    have hgap : (Doc.when (!first) typeGap).Closed m := .when (fun _ _ => rfl) _
    have hmore := ih (fun t hmem => ht t (List.mem_cons_of_mem _ hmem)) false
    exact .append (.pass hgap (ht t List.mem_cons_self)) hmore

theorem globals_bear (h : c.Closes m) {gs : List Global}
    (hm : ∀ g ∈ gs, ∀ scope opened, (∀ s ∈ scope, m.Overlooks s.name) →
      Bears d setting m (c.member g.member) scope opened opened (g.member.constructs d)) :
    Bears d setting m (d.language.units.globals c gs) none opened opened
      (.join (gs.map fun g => g.member.constructs d)) := by
  cases d with
  | csharp =>
    have hhost : m.Overlooks CSharp.hostName := m.overlooks_of_chars rfl
    refine CSharp.globals_bear (h.verbatim hhost) (fun g hg opened => ?_) opened
    exact hm g hg _ opened fun s hs => Option.some.inj hs ▸ hhost
  | swift => exact .concat fun g hg => hm g hg none opened nofun

theorem enclose_bears (h : c.Closes m) {u : CodeUnit}
    (hs : ∀ space ∈ u.namespaceName, m.Overlooks space) {x : Doc} {f : Forest Construct}
    (hx : ∀ opened, Bears d setting m x scope opened opened f) :
    Bears d setting m (d.language.units.enclose c u x) scope opened opened f := by
  cases d with
  | csharp => exact CSharp.enclose_bears h hs hx opened
  | swift => exact hx opened

/-- A unit bears its imports, its globals and its types. -/
theorem unitRule_bears {u : CodeUnit} (hsize : u.outline.size ≤ depth + 1)
    (ho : u.outline.Overlooked m) :
    Bears d setting m (d.language.unitRule (d.language.context setting depth) u) none opened opened
      (u.constructs d) := by
  have hcloses := d.context_closes m setting depth
  obtain ⟨hmember, hdefinition⟩ := d.declarations_bear (m := m) setting depth
  simp only [CodeUnit.outline, Outline.overlooked_node, Outline.overlooked_beside,
    Outline.overlooked_inOrder, Outline.size] at ho hsize
  obtain ⟨htexts, himports, hglobals, htypes⟩ := ho
  simp only [Node.texts, List.mem_append, or_imp, forall_and] at htexts
  obtain ⟨⟨hspace, hheader⟩, hnames⟩ := htexts
  have hsizes : ∀ {α : Type} (outline : α → Outline) (items : List α),
      (Outline.inOrder (items.map outline)).size ≤ depth → ∀ a ∈ items, (outline a).size ≤ depth :=
    fun _ _ hle a ha => Nat.le_trans (Outline.size_le_inOrder (List.mem_map_of_mem ha)) hle
  have himportSizes := hsizes Import.outline u.imports (by omega)
  have hglobalSizes := hsizes (fun g : Global => g.member.outline) u.globals (by omega)
  have htypeSizes := hsizes TypeDefinition.outline u.types (by omega)
  have hheader : (d.language.fileHeader u).Closed m := by
    refine .whenSome fun comment hcomment => .append ?_ fun _ _ => rfl
    have hlines := hcloses.comment fun s hs =>
      hheader s (List.mem_flatMap.2 ⟨comment, Option.mem_toList.2 hcomment, hs⟩)
    rwa [(d.language.context_speaks setting depth).lineComment] at hlines
  have himports : Bears d setting m (Doc.concat (u.imports.map (d.language.importDoc
      (d.language.context setting depth)))) none opened opened
      (.join (u.imports.map fun i => .node (.imported i) .nil .nil)) := by
    refine .concat fun i hi => .construct (k := .imported i) ?_ ?_ (.closed ?_)
    · exact himportSizes i hi
    · exact fun e he => hcloses.expression (overlooked_expression?.1 (himports i hi) e he)
    · refine .append (d.importing_closed hcloses (hnames _ ?_)) fun _ _ => rfl
      exact List.mem_map_of_mem hi
  have hglobals : ∀ opened, Bears d setting m _ none opened opened
      (.join (u.globals.map fun g => g.member.constructs d)) := fun opened =>
    d.globals_bear hcloses fun g hg scope opened hs =>
      hmember g.member (hglobalSizes g hg) (hglobals g hg) scope opened hs
  have htypes : ∀ opened, Bears d setting m _ none opened opened
      (.join (u.types.map (·.constructs d))) := fun opened =>
    d.typeList_bears (fun t ht =>
      hdefinition t (htypeSizes t ht) (htypes t ht) none opened) u.globals.isEmpty
  have hgap : (Doc.when (!u.imports.isEmpty) newline).Closed m := .when (fun _ _ => rfl) _
  refine .append (.before (.pass hheader himports) (hgap none opened)) (d.enclose_bears hcloses
    ?_ fun opened => .append (hglobals opened) (htypes opened))
  exact fun space hs => hspace space (Option.mem_toList.2 hs)

/-- The document of a request bears the constructs that are written for it. -/
theorem document_bears (options : Options) {r : Request} (ht : ∀ s ∈ r.texts, m.Overlooks s) :
    Bears d (r.setting options) m (r.document d.language options) none [] [] (r.constructs d) := by
  obtain ⟨ho, howner⟩ := List.forall_mem_append.1 ht
  have ho : r.outline.Overlooked m := fun n hn s hs => ho s (List.mem_flatMap.2 ⟨n, hn, hs⟩)
  have hpart : ∀ (setting : Setting) (p : Part) (depth : Nat), p.IsCode → p.outline.Overlooked m →
      Bears d setting m (p.doc (d.language.context setting depth)) none [] [] .nil :=
    fun setting p depth hp ho => .closed ((d.context_closes m setting depth).part p hp ho)
  cases r with
  | unit u definitionOnly =>
    exact .node (d.unitRule_bears (Nat.le_succ_of_le (Nat.le_of_eq u.size_outline)) ho)
  | definition t home definitionOnly =>
    exact (d.declarations_bear _ t.size).2 t (Nat.le_of_eq t.size_outline) ho none []
  | member x owner home definitionOnly =>
    have hmember := (d.declarations_bear (m := m) (.of options home definitionOnly) x.size).1 x
      (Nat.le_of_eq x.size_outline) ho
    cases owner with
    | none => exact hmember none [] nofun
    | some t =>
      refine .inside (hmember (some (.of t)) [] ?_)
      rintro s ⟨⟩
      rw [TypeScope.name_of]
      exact howner t.name (List.mem_singleton_self _)
  | parameter p home => exact hpart _ (.parameter p) p.size trivial ho
  | statement s home => exact hpart _ (.statement s) s.size trivial ho
  | statementText s => exact hpart _ (.statement s) s.size trivial ho
  | expressionText e => exact hpart _ (.expression e) e.size trivial ho

end Dialect

end SourcePrinter
