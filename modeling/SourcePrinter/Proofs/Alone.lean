import SourcePrinter.Proofs.Depth
import SourcePrinter.Proofs.Dialect
import SourcePrinter.Proofs.Pieces

/-! Members in their type, types in their unit and statements in their block are rendered as they
are by themselves, but for one level of indentation. -/

namespace SourcePrinter

open Doc

/-- One level of indentation. -/
def Options.unit (o : Options) : List Char :=
  if o.useTabs then ['\t'] else List.replicate o.tabSize ' '

theorem Options.margin_one (o : Options) : o.indentation.margin 1 = o.unit := by
  unfold unit Indentation.margin Indentation.fill indentation
  split <;> simp [*]

/-- The text has the given texts on lines of their own, in order and with nothing but blank lines
between them. -/
def Contains (text : List Char) (parts : List (List Char)) : Prop :=
  ∃ before middle after, text = before ++ middle ++ after ∧ endsLine true before = true ∧
    Stacked True parts middle

/-! ### Requests -/

namespace Request

variable {l : Language} {options : Options} {r : Request} {rs : List Request} {out : Rendering}

def moves (l : Language) (options : Options) (r : Request) : List Move :=
  (r.document l options).moves none

/-- No list wraps in the rendering of the request. -/
def Unbroken (l : Language) (options : Options) (r : Request) : Prop :=
  SourcePrinter.Unbroken options (r.moves l options) (.new options.indentation)

/-- Requests that succeed one by one give their renderings in order. -/
theorem mapM_render {f : Request → List Char}
    (h : ∀ r ∈ rs, ∃ out, r.render l options = .ok out ∧ out.text.toList = f r) :
    ∃ outs, rs.mapM (render l options) = .ok outs ∧ ∀ g : List Char → List Char,
      outs.map (fun out => g out.text.toList) = rs.map fun r => g (f r) := by
  induction rs with
  | nil => exact ⟨[], rfl, fun _ => rfl⟩
  | cons r more ih =>
    obtain ⟨⟨out, hout, htext⟩, hmore⟩ := List.forall_mem_cons.1 h
    obtain ⟨outs, houts, htexts⟩ := ih hmore
    refine ⟨out :: outs, ?_, fun g => ?_⟩
    · rw [List.mapM_cons, hout, houts]
      rfl
    · rw [List.map_cons, List.map_cons, htext, htexts]

/-- The pieces of a pile that a request hosts can be rendered by themselves. -/
theorem parts_render {gaps : Prop} {pre inner post : List Move}
    (h : r.render l options = .ok out) (hmoves : r.moves l options = pre ++ (inner ++ post))
    (hp : Pile gaps (rs.map (moves l options)) inner)
    (hu : ∀ a ∈ rs.map (moves l options),
      SourcePrinter.Unbroken options a (.new options.indentation)) :
    ∃ outs, rs.mapM (render l options) = .ok outs ∧ ∀ g : List Char → List Char,
      outs.map (fun out => g out.text.toList) =
        (rs.map (moves l options)).map fun a => g (aloneText options a) := by
  have hfailure : (r.moves l options).findSome? (Move.failure options.strict) = none :=
    Doc.exists_render_iff_moves.1 ⟨out, h⟩
  rw [hmoves, List.findSome?_append, List.findSome?_append, Option.or_eq_none_iff,
    Option.or_eq_none_iff] at hfailure
  have hpieces := hp.failure_eq_none hfailure.2.1
  simp only [List.map_map]
  refine mapM_render fun r' hr' => ?_
  have hmem : r'.moves l options ∈ rs.map (moves l options) := List.mem_map_of_mem hr'
  obtain ⟨out', hout'⟩ := Doc.exists_render_iff_moves.2 (hpieces _ hmem)
  have htext := Doc.text_of_render hout' (hu _ hmem)
  exact ⟨out', hout', congrArg String.toList htext⟩

/-- A request that hosts a pile of others contains their texts. -/
theorem contains_parts {k : Nat} {inner : List Move} (h : r.render l options = .ok out)
    (hu : r.Unbroken l options) (hh : Hosts True k inner (r.moves l options))
    (hp : Pile True (rs.map (moves l options)) inner) :
    ∃ outs, rs.mapM (render l options) = .ok outs ∧
      Contains out.text.toList
        (outs.map fun out => shift (options.indentation.margin k) out.text.toList) := by
  obtain ⟨halone, before, middle, after, htext, hbefore, hs⟩ := hh.text_perform hp hu
  obtain ⟨pre, post, -, hmoves⟩ := hh
  obtain ⟨outs, houts, htexts⟩ := parts_render h hmoves hp halone
  refine ⟨outs, houts, before, middle, after, ?_, hbefore, ?_⟩
  · rw [← htext]
    exact congrArg String.toList (Doc.text_of_render h hu)
  · rw [htexts]
    exact hs

end Request

/-! ### Documents of parts -/

namespace Language

variable (l : Language) {c : Context} {scope : Option TypeScope} {needed : Prop}

/-- What a guard stands around ends its line if there is no guard; the guard ends its own. -/
theorem guarded_tidy {d : Doc} (h : Tidy (d.moves scope)) (condition : Option Expression) :
    Tidy ((l.guarded c condition d).moves scope) := by
  cases condition with
  | none => exact h
  | some e => exact .lineStart _

theorem guarded_hosts {d : Doc} {k : Nat} {inner : List Move}
    (h : Hosts needed k inner (d.moves scope)) (condition : Option Expression) :
    Hosts needed k inner ((l.guarded c condition d).moves scope) := by
  cases condition with
  | none => exact h
  | some e =>
    have hstart : Balanced ((lineStart ++ l.units.conditionStart c e ++ lineStart).moves scope) :=
      Doc.moves_balanced _ _
    exact (((Hosts.left hstart (fun _ => .lineStart _) h).right _).right _).right _

variable (setting : Setting)

/-- The documents of declarations and of statements end their lines. -/
theorem member_tidy (depth : Nat) (m : Member) (scope : Option TypeScope) :
    Tidy (((l.context setting depth).member m).moves scope) := by
  cases depth with
  | zero => exact .nil
  | succ depth => exact l.guarded_tidy (.lineStart _) m.info.condition

theorem definition_tidy (depth : Nat) (t : TypeDefinition) (scope : Option TypeScope) :
    Tidy (((l.context setting depth).typeDefinition t).moves scope) := by
  cases depth with
  | zero => exact .nil
  | succ depth => exact l.guarded_tidy (.lineStart _) t.info.condition

theorem statement_tidy (depth : Nat) (s : Statement) (scope : Option TypeScope) :
    Tidy (((l.context setting depth).statement s).moves scope) := by
  cases depth with
  | zero => exact .nil
  | succ depth => exact .lineStart _

/-- A type definition hosts what its rule hosts. -/
theorem definitionNode_hosts {t : TypeDefinition} {k : Nat} {inner : List Move}
    (h : Hosts False k inner ((l.definitionRule c t).moves (some (.of t)))) :
    Hosts False k inner ((l.definitionNode c t).moves scope) := by
  have hpreamble : Balanced ((l.preamble c t.info).moves scope) := Doc.moves_balanced _ _
  exact l.guarded_hosts (d := node t.key _ ++ lineStart) ((Hosts.left hpreamble nofun h).right _)
    t.info.condition

end Language

/-! ### Lists of parts -/

namespace Pile

variable {gaps : Prop} {scope : Option TypeScope} {α : Type}

/-- Parts in order without anything between them. -/
theorem concat {doc : α → Doc} (h : ∀ a, Tidy ((doc a).moves scope)) (items : List α) :
    Pile gaps (items.map fun a => (doc a).moves scope)
      ((Doc.concat (items.map doc)).moves scope) := by
  induction items with
  | nil => exact .nil
  | cons a more ih => exact .piece (Doc.moves_balanced _ _) (h a) ih

/-- Members with at most a blank line between any two. -/
theorem members {c : Context} (hc : ∀ m, Tidy ((c.member m).moves scope))
    {doc : List Member → Doc} {g : Member → Member → Bool}
    (hdoc : c.Lists (fun m next => when (g m next) Doc.newline) doc) (ms : List Member) :
    Pile True (ms.map fun m => (c.member m).moves scope) ((doc ms).moves scope) := by
  refine hdoc.induct (P := fun ms d =>
    Pile True (ms.map fun m => (c.member m).moves scope) (d.moves scope)) .nil (fun m => ?_)
    (fun m next rest ih => ?_) ms
  · have hpile : Pile True [(c.member m).moves scope] ((c.member m).moves scope ++ []) :=
      .piece (Doc.moves_balanced _ _) (hc m) .nil
    rw [List.append_nil] at hpile
    exact hpile
  · have hpile : Pile True ((next :: rest).map fun m => (c.member m).moves scope)
        ((when (g m next) Doc.newline).moves scope ++ (doc (next :: rest)).moves scope) := by
      cases g m next with
      | false => exact ih
      | true => exact .newline trivial ih
    rw [moves_append, moves_append, List.append_assoc]
    exact .piece (Doc.moves_balanced _ _) (hc m) hpile

theorem types {c : Context} (hc : ∀ t, Tidy ((c.typeDefinition t).moves scope)) (first : Bool)
    (ts : List TypeDefinition) : Pile True (ts.map fun t => (c.typeDefinition t).moves scope)
      ((Language.typeList c first ts).moves scope) := by
  induction ts generalizing first with
  | nil => exact .nil
  | cons t more ih =>
    have hpile : Pile True ((t :: more).map fun t => (c.typeDefinition t).moves scope)
        ((c.typeDefinition t).moves scope ++ (Language.typeList c false more).moves scope) :=
      .piece (Doc.moves_balanced _ _) (hc t) (ih false)
    cases first with
    | true => exact hpile
    | false => exact .typeGap trivial hpile

end Pile

/-! ### Rules -/

/-- The language writes members for the definition: it is a class, a structure, an interface, or
an extension in a language that has these. -/
def Dialect.HoldsMembers (d : Dialect) (t : TypeDefinition) : Prop :=
  match t.form with
  | .classType _ | .structType _ | .interfaceType _ => True
  | .extensionType _ => d ≠ .csharp
  | _ => False

theorem CSharp.braced_hosts (d : Doc) (scope : Option TypeScope) :
    Hosts False 1 (d.moves scope) ((Brace.braced d).moves scope) := by
  have hbraced : (Brace.braced d).moves scope = [.write "\x7b", .newline, .indent] ++
      (d.moves scope ++ [.dedent, .write "\x7d", .newline]) := by
    simp [Brace.braced, line, moves_append, moves]
  rw [hbraced]
  exact .opened _ _ _

theorem Swift.braces_hosts (d : Doc) (scope : Option TypeScope) :
    Hosts False 1 (d.moves scope) ((Swift.braces d).moves scope) := by
  have hbraces : (Swift.braces d).moves scope = [.write " \x7b", .newline, .indent] ++
      (d.moves scope ++ [.dedent, .write "\x7d"]) := by
    simp [Swift.braces, line, moves_append, moves]
  rw [hbraces]
  exact .opened _ _ _

/-- Each form that holds members hosts a pile of them. -/
theorem Dialect.definition_piles (d : Dialect) {t : TypeDefinition} (ht : d.HoldsMembers t)
    {c : Context} {scope : Option TypeScope} (hc : ∀ m, Tidy ((c.member m).moves scope)) :
    ∃ inner, Hosts False 1 inner ((d.language.definitionRule c t).moves scope) ∧
      Pile True (t.members.map fun m => (c.member m).moves scope) inner := by
  obtain ⟨_, _, _, form⟩ := t
  cases d with
  | csharp =>
    have hlist : ∀ ms, Pile True (ms.map fun m => (c.member m).moves scope)
        ((CSharp.memberList c ms).moves scope) :=
      Pile.members hc (CSharp.memberList_lists c)
    cases form with
    | classType body | structType body | interfaceType body =>
      exact ⟨_, .left (Doc.moves_balanced _ _) nofun (CSharp.braced_hosts _ _), hlist body.members⟩
    | extensionType body => exact absurd rfl ht
    | aliasType | enumeration | blockType => exact ht.elim
  | swift lowercaseCases =>
    have hlist : ∀ ms, Pile True (ms.map fun m => (c.member m).moves scope)
        ((Swift.memberList c ms).moves scope) :=
      Pile.members hc (g := fun _ _ => true) (Swift.memberList_lists c)
    cases form with
    | classType body | structType body | interfaceType body | extensionType body =>
      exact ⟨_, (Hosts.left (Doc.moves_balanced _ _) nofun (Swift.braces_hosts _ _)).right _,
        hlist body.members⟩
    | aliasType | enumeration | blockType => exact ht.elim

/-! ### Units -/

theorem concat_tidy {α : Type} {doc : α → Doc} {scope : Option TypeScope}
    (h : ∀ a, Tidy ((doc a).moves scope)) (items : List α) :
    Tidy ((Doc.concat (items.map doc)).moves scope) := by
  have htidy : Doc.Compositional fun d => Tidy (d.moves scope) :=
    ⟨.nil, fun _ _ h h' => h.append h'⟩
  exact htidy.concat (List.forall_mem_map.2 fun a _ => h a)

theorem CSharp.braced_starts {needed : Prop} (d : Doc) (scope : Option TypeScope) :
    Starts needed ((Brace.braced d).moves scope) := .after _ (.newline _)

theorem CSharp.globals_tidy (c : Context) (gs : List Global) (scope : Option TypeScope) :
    Tidy ((CSharp.globals c gs).moves scope) := by
  unfold CSharp.globals
  cases gs.isEmpty with
  | true => exact .nil
  | false => exact .after _ (CSharp.braced_starts _ _)

/-- The types of a unit are a level deeper: the language has namespaces and the unit is in one. -/
def Dialect.Deepens (d : Dialect) (u : CodeUnit) : Prop := d = .csharp ∧ u.namespaceName.isSome

instance (d : Dialect) (u : CodeUnit) : Decidable (d.Deepens u) :=
  inferInstanceAs (Decidable (_ ∧ _))

/-- A unit hosts a pile of its types. -/
theorem Dialect.unit_piles (d : Dialect) (u : CodeUnit) {c : Context} {scope : Option TypeScope}
    (hm : ∀ m, Tidy ((c.member m).moves scope))
    (ht : ∀ t, Tidy ((c.typeDefinition t).moves scope)) :
    ∃ inner, Hosts True (if d.Deepens u then 1 else 0) inner
        ((d.language.unitRule c u).moves scope) ∧
      Pile True (u.types.map fun t => (c.typeDefinition t).moves scope) inner := by
  have himport : ∀ i, Tidy ((d.language.importDoc c i).moves scope) := fun i =>
    d.language.guarded_tidy (d := d.language.hooks.importing c i ++ lineStart) (.lineStart _)
      i.condition
  have himports : Tidy ((concat (u.imports.map (d.language.importDoc c))).moves scope) :=
    concat_tidy himport u.imports
  have hblank : Tidy ((when (!u.imports.isEmpty) newline).moves scope) := by
    cases u.imports.isEmpty with
    | true => exact .nil
    | false => exact .newline []
  have hheader : Tidy ((d.language.fileHeader u).moves scope) := by
    unfold Language.fileHeader
    cases u.headerComment with
    | none => exact .nil
    | some comment => exact .newline _
  have hhead := (hheader.append himports).append hblank
  refine ⟨_, ?_, .types ht u.globals.isEmpty u.types⟩
  refine .left (Doc.moves_balanced _ _) (fun _ => hhead) ?_
  cases d with
  | csharp =>
    have hlist : Hosts True 0 ((Language.typeList c u.globals.isEmpty u.types).moves scope)
        ((CSharp.globals c u.globals ++
          Language.typeList c u.globals.isEmpty u.types).moves scope) :=
      .left (Doc.moves_balanced _ _) (fun _ => CSharp.globals_tidy c u.globals scope) (.refl _)
    cases hspace : u.namespaceName with
    | none =>
      have hflat : ¬Dialect.csharp.Deepens u := by simp [Dialect.Deepens, hspace]
      rw [if_neg hflat]
      simp only [Dialect.language, Language.csharp, CSharp.units, hspace]
      exact hlist
    | some space =>
      -- The braces of the namespace hold the globals and the types, a level deeper.
      have hdeep : Dialect.csharp.Deepens u := by simp [Dialect.Deepens, hspace]
      rw [if_pos hdeep]
      simp only [Dialect.language, Language.csharp, CSharp.units, hspace]
      have hbraced := CSharp.braced_hosts
        (CSharp.globals c u.globals ++ Language.typeList c u.globals.isEmpty u.types ++ lineStart)
        scope
      have hbraced : Hosts True (1 + 0) _ _ := hbraced.needing.trans (hlist.right [.lineStart])
      exact .left (Doc.moves_balanced _ _) (fun _ => .newline _) hbraced
  | swift lowercaseCases =>
    have hflat : ¬(Dialect.swift lowercaseCases).Deepens u := by simp [Dialect.Deepens]
    rw [if_neg hflat]
    exact .left (Doc.moves_balanced _ _)
      (fun _ => concat_tidy (fun g : Global => hm g.member) u.globals) (.refl _)

/-! ### Parts by themselves -/

theorem Outline.size_le_inOrder {o : Outline} {os : List Outline} (h : o ∈ os) :
    o.size ≤ (inOrder os).size := by
  induction os with
  | nil => cases h
  | cons x more ih =>
    rw [inOrder, size]
    rcases List.mem_cons.1 h with rfl | h
    · omega
    · have := ih h
      omega

theorem TypeDefinition.size_member {t : TypeDefinition} {m : Member} (h : m ∈ t.members) :
    m.outline.size ≤ t.size - 1 := by
  have hlist : ∀ ms : List Member, m ∈ ms → m.outline.size ≤ sizeMembers ms := by
    intro ms hm
    rw [← size_memberOutlines, memberOutlines_eq]
    exact Outline.size_le_inOrder (List.mem_map_of_mem hm)
  have hbody : ∀ body : ClassBody, m ∈ body.members → m.outline.size ≤ body.size := by
    rintro ⟨_, _, _, members, _, _, _, _⟩ hm
    have hle := hlist members hm
    rw [ClassBody.size]
    omega
  obtain ⟨id, name, info, form⟩ := t
  have hform : m.outline.size ≤ form.size := by
    cases form with
    | classType body | structType body | interfaceType body | extensionType body =>
      exact hbody body h
    | aliasType | enumeration | blockType => cases h
  show m.outline.size ≤ info.size + form.size + 1 - 1
  omega

namespace Dialect

variable (d : Dialect) {options : Options} {out : Rendering}

/-- In a context that reaches them, parts make the moves that requests for them make. -/
theorem parts_moves {α : Type} (part : α → Part) {items : List α} {request : α → Request}
    {setting : Setting} {scope : Option TypeScope} {depth : Nat} {reach : α → Nat}
    (hdepth : ∀ a ∈ items, (part a).outline.size ≤ depth)
    (hreach : ∀ a, (part a).outline.size ≤ reach a)
    (hrequest : ∀ a, (request a).moves d.language options =
      ((part a).doc (d.language.context setting (reach a))).moves scope) :
    (items.map fun a => ((part a).doc (d.language.context setting depth)).moves scope) =
      (items.map request).map (Request.moves d.language options) := by
  rw [List.map_map]
  refine List.map_congr_left fun a ha => ?_
  rw [d.composes.doc_context setting (part a) (hdepth a ha) (hreach a)]
  exact (hrequest a).symm

/-- The text of a type definition contains its members, a level deeper. -/
theorem definition_contains_members {t : TypeDefinition} (ht : d.HoldsMembers t)
    {home : Option CodeUnit} {definitionOnly : Bool}
    (h : (Request.definition t home definitionOnly).render d.language options = .ok out)
    (hu : (Request.definition t home definitionOnly).Unbroken d.language options) :
    ∃ outs, (t.members.map fun m => .member m (some t) home definitionOnly).mapM
        (Request.render d.language options) = .ok outs ∧
      Contains out.text.toList (outs.map fun out => shift options.unit out.text.toList) := by
  obtain ⟨c, hc⟩ : ∃ c, c = d.language.context (.of options home definitionOnly) (t.size - 1) :=
    ⟨_, rfl⟩
  have hmoves : (Request.definition t home definitionOnly).moves d.language options =
      (d.language.definitionNode c t).moves none := by
    rw [hc]
    cases t
    rfl
  have hmembers : ∀ m, Tidy ((c.member m).moves (some (.of t))) := by
    rw [hc]
    exact fun m => d.language.member_tidy _ _ m _
  obtain ⟨inner, hhosts, hpile⟩ := d.definition_piles ht hmembers
  -- Below the rule of the type, a member has the document that it has by itself.
  have hparts : (t.members.map fun m => (c.member m).moves (some (.of t))) =
      (t.members.map fun m => .member m (some t) home definitionOnly).map
        (Request.moves d.language options) := by
    rw [hc]
    exact d.parts_moves .member (fun _ hm => TypeDefinition.size_member hm)
      (fun m => Nat.le_of_eq m.size_outline) fun _ => rfl
  rw [hparts] at hpile
  have hhosts : Hosts True 1 inner ((Request.definition t home definitionOnly).moves d.language
      options) := by
    rw [hmoves]
    exact (d.language.definitionNode_hosts hhosts).needing
  have hcontains := Request.contains_parts h hu hhosts hpile
  rw [options.margin_one] at hcontains
  exact hcontains

/-- The text of a unit contains its types, a level deeper in a namespace. -/
theorem unit_contains_types {u : CodeUnit} {definitionOnly : Bool}
    (h : (Request.unit u definitionOnly).render d.language options = .ok out)
    (hu : (Request.unit u definitionOnly).Unbroken d.language options) :
    ∃ outs, (u.types.map fun t => .definition t (some u) definitionOnly).mapM
        (Request.render d.language options) = .ok outs ∧
      Contains out.text.toList (outs.map fun out =>
        if d.Deepens u then shift options.unit out.text.toList else out.text.toList) := by
  obtain ⟨c, hc⟩ : ∃ c, c = d.language.context (.of options (some u) definitionOnly) u.size :=
    ⟨_, rfl⟩
  have hmembers : ∀ m, Tidy ((c.member m).moves none) := by
    rw [hc]
    exact fun m => d.language.member_tidy _ _ m _
  have htypes : ∀ t, Tidy ((c.typeDefinition t).moves none) := by
    rw [hc]
    exact fun t => d.language.definition_tidy _ _ t _
  obtain ⟨inner, hhosts, hpile⟩ := d.unit_piles u hmembers htypes
  have hsize : ∀ t ∈ u.types, t.outline.size ≤ u.size := by
    intro t ht
    have hle := Outline.size_le_inOrder (List.mem_map_of_mem (f := TypeDefinition.outline) ht)
    rw [size_all TypeDefinition.size_outline] at hle
    rw [CodeUnit.size]
    omega
  have hparts : (u.types.map fun t => (c.typeDefinition t).moves none) =
      (u.types.map fun t => .definition t (some u) definitionOnly).map
        (Request.moves d.language options) := by
    rw [hc]
    exact d.parts_moves .definition hsize (fun t => Nat.le_of_eq t.size_outline) fun _ => rfl
  rw [hparts] at hpile
  have hhosts : Hosts True (if d.Deepens u then 1 else 0) inner
      ((Request.unit u definitionOnly).moves d.language options) := by
    rw [hc] at hhosts
    exact hhosts
  obtain ⟨outs, houts, hcontains⟩ := Request.contains_parts h hu hhosts hpile
  refine ⟨outs, houts, ?_⟩
  by_cases hdeep : d.Deepens u
  · simp only [if_pos hdeep, options.margin_one] at hcontains ⊢
    exact hcontains
  · have hshift : ∀ text : List Char, shift (options.indentation.margin 0) text = text := by
      intro text
      rw [Indentation.margin_zero]
      exact shiftFrom_nil true text
    simp only [if_neg hdeep, hshift] at hcontains ⊢
    exact hcontains

/-- The line that opens a block statement. -/
def blockStart : Dialect → String
  | csharp => "\x7b"
  | swift _ => "do \x7b"

/-- A block opens with its line, does its statements a level deeper and ends with a brace. -/
theorem block_moves (c : Context) (id : NodeId) (ss : List Statement) (scope : Option TypeScope) :
    ∃ opening closing,
      (∀ options (w : Writer), perform options opening w = w.writeChars d.blockStart.toList) ∧
      (∀ options (w : Writer), w.atLineStart = false →
        (perform options closing w).text.toList = w.text.toList ++ ['\n']) ∧
      (d.language.statementNode c ⟨id, .block ss⟩).moves scope =
        opening ++ [.newline, .indent] ++
          ((c.statements ss).moves scope ++ .dedent :: .write "\x7d" :: closing) := by
  cases d with
  | csharp =>
    refine ⟨[.write "\x7b"], [.newline, .lineStart], fun _ _ => rfl, fun _ w _ => ?_, ?_⟩
    · exact w.toList_newline
    · simp [Language.statementNode, Language.statementRule, language, Language.csharp,
        CSharp.statements, Brace.block, Brace.braced, line, moves]
  | swift lowercaseCases =>
    refine ⟨[.write "do", .write " \x7b"], [.lineStart], fun _ w => ?_, fun _ w hw => ?_, ?_⟩
    · have hwords : "do \x7b" = "do" ++ " \x7b" := by decide
      rw [blockStart, hwords, String.toList_append, Writer.writeChars_append]
      rfl
    · have hline : w.ensureLineStart = w.newline := by
        rw [Writer.ensureLineStart, hw]
        rfl
      exact (congrArg (·.text.toList) hline).trans w.toList_newline
    · simp [Language.statementNode, Language.statementRule, language, Language.swift,
        Swift.statements, Swift.openStatements, Swift.braces, line, moves]

/-- The text of a block statement is the text of its statements, a level deeper, between the lines
that open and close it. -/
theorem block_text {id : NodeId} {ss : List Statement} {home : Option CodeUnit}
    (h : (Request.statement ⟨id, .block ss⟩ home).render d.language options = .ok out)
    (hu : (Request.statement ⟨id, .block ss⟩ home).Unbroken d.language options) :
    ∃ outs, (ss.map fun s => .statement s home).mapM (Request.render d.language options) =
        .ok outs ∧
      out.text.toList = d.blockStart.toList ++ '\n' ::
        (outs.map fun out => shift options.unit out.text.toList).flatten ++ ['\x7d', '\n'] := by
  obtain ⟨c, hc⟩ : ∃ c, c = d.language.context (.of options home false) (sizeStatements ss) :=
    ⟨_, rfl⟩
  obtain ⟨opening, closing, hopen, hclose, hblock⟩ := d.block_moves c id ss none
  have hmoves : (Request.statement ⟨id, .block ss⟩ home).moves d.language options =
      opening ++ [.newline, .indent] ++
        ((c.statements ss).moves none ++ .dedent :: .write "\x7d" :: closing) := by
    rw [← hblock, hc]
    rfl
  have hpile : Pile False (ss.map fun s => (c.statement s).moves none)
      ((c.statements ss).moves none) := by
    rw [hc]
    exact .concat (fun s => d.language.statement_tidy _ _ s _) ss
  have hsize : ∀ s ∈ ss, s.outline.size ≤ sizeStatements ss := by
    intro s hs
    rw [← size_statementOutlines, statementOutlines_eq]
    exact Outline.size_le_inOrder (List.mem_map_of_mem hs)
  have hparts : (ss.map fun s => (c.statement s).moves none) =
      (ss.map fun s => .statement s home).map (Request.moves d.language options) := by
    rw [hc]
    exact d.parts_moves .statement hsize (fun s => Nat.le_of_eq s.size_outline) fun _ => rfl
  rw [hparts] at hpile
  -- Nothing is due at the start of a text, so the block is opened as it is spelled.
  have hstart : aloneText options opening = d.blockStart.toList ∧
      (perform options opening (.new options.indentation)).level = 0 := by
    have hline : '\n' ∉ d.blockStart.toList ∧ d.blockStart.toList ≠ [] := by
      cases d with
      | csharp => decide
      | swift lowercaseCases => exact (by decide : '\n' ∉ "do \x7b".toList ∧ "do \x7b".toList ≠ [])
    have hdue : (Writer.new options.indentation).due = [] :=
      (Writer.due_of_start rfl).trans (Indentation.margin_zero _)
    have htext := Writer.writeChars_text (w := .new options.indentation) hline.1 hline.2
    obtain ⟨_, hgrows⟩ := (Writer.new options.indentation).writeChars_grows d.blockStart.toList
    rw [hdue] at htext
    rw [aloneText, hopen]
    exact ⟨htext, hgrows.level⟩
  have hunbroken := hu
  rw [Request.Unbroken, hmoves] at hunbroken
  obtain ⟨halone, htext⟩ := hpile.text_block hstart.1 hstart.2 (hclose options) hunbroken
  obtain ⟨outs, houts, htexts⟩ := Request.parts_render h hmoves hpile halone
  have hout : out.text.toList = aloneText options _ :=
    congrArg String.toList (Doc.text_of_render h hu)
  refine ⟨outs, houts, ?_⟩
  rw [hout]
  show aloneText options ((Request.statement ⟨id, .block ss⟩ home).moves d.language options) = _
  rw [hmoves, htext, htexts, options.margin_one]

end Dialect

/-- What a container holds is rendered by itself as it is in the container. Where no list wraps, a
class, a structure, an interface or an extension contains its members one level deeper; a unit
contains its types, one level deeper if it is in a namespace that is written; and a block is its
statements one level deeper between the lines that open and close it. All of them can be rendered
by themselves if the container can. -/
theorem Dialect.parts_stand_alone (d : Dialect) {options : Options} {r : Request}
    {out : Rendering} (h : r.render d.language options = .ok out)
    (hu : r.Unbroken d.language options) :
    (∀ t home definitionOnly, r = .definition t home definitionOnly → d.HoldsMembers t →
      ∃ outs, (t.members.map fun m => .member m (some t) home definitionOnly).mapM
          (Request.render d.language options) = .ok outs ∧
        Contains out.text.toList (outs.map fun out => shift options.unit out.text.toList)) ∧
    (∀ u definitionOnly, r = .unit u definitionOnly →
      ∃ outs, (u.types.map fun t => .definition t (some u) definitionOnly).mapM
          (Request.render d.language options) = .ok outs ∧
        Contains out.text.toList (outs.map fun out =>
          if d.Deepens u then shift options.unit out.text.toList else out.text.toList)) ∧
    ∀ id ss home, r = .statement ⟨id, .block ss⟩ home →
      ∃ outs, (ss.map fun s => .statement s home).mapM (Request.render d.language options) =
          .ok outs ∧
        out.text.toList = d.blockStart.toList ++ '\n' ::
          (outs.map fun out => shift options.unit out.text.toList).flatten ++ ['\x7d', '\n'] := by
  refine ⟨?members, ?types, ?statements⟩
  case members =>
    rintro t home definitionOnly rfl ht
    exact d.definition_contains_members ht h hu
  case types =>
    rintro u definitionOnly rfl
    exact d.unit_contains_types h hu
  case statements =>
    rintro id ss home rfl
    exact d.block_text h hu

/-- A class with a field and a method that breaks its loop. -/
def TypeDefinition.runner : TypeDefinition :=
  let info : DeclarationInfo := ⟨.everyone, none, [], none⟩
  let count : Member := ⟨1, "count", info, .none, false,
    .field ⟨some (.ofForm 1 (.predefined .int32)), none, false, false⟩⟩
  let body : Statement := ⟨1, .infiniteLoop ⟨2, .block [⟨3, .breakLoop⟩]⟩⟩
  let run : Member :=
    ⟨2, "run", info, .none, false, .method ⟨[], [], none, [body], false, false, false⟩⟩
  ⟨1, "Runner", info, .classType ⟨[], [], [], [count, run], false, false, false, false⟩⟩

theorem TypeDefinition.runner_contains_members :
    ∃ out, (Request.definition runner none false).render .csharp .initial = .ok out ∧
      (Request.definition runner none false).Unbroken .csharp .initial ∧
      ∃ outs, (runner.members.map fun m => .member m (some runner) none false).mapM
          (Request.render .csharp .initial) = .ok outs ∧
        Contains out.text.toList
          (outs.map fun out => shift Options.initial.unit out.text.toList) := by
  obtain ⟨out, hout⟩ : ∃ out,
      (Request.definition runner none false).render .csharp .initial = .ok out :=
    Doc.exists_render_iff_moves.2 rfl
  have hunbroken : (Request.definition runner none false).Unbroken .csharp .initial := by
    unfold Request.Unbroken
    decide
  obtain ⟨hmembers, -⟩ := Dialect.parts_stand_alone .csharp hout hunbroken
  exact ⟨out, hout, hunbroken, hmembers runner none false rfl trivial⟩

end SourcePrinter
