import SourcePrinter.Proofs.Depth
import SourcePrinter.Proofs.Dialect
import SourcePrinter.Proofs.Suspended

/-! Rendering without spans, for the rest of a tree. Where a tree is rendered without spans in place
of one with spans, whatever stands around it is written as before and keeps its spans. A loop
without an end is one over a condition that always holds. -/

namespace SourcePrinter

open Doc

/-! ### States that agree -/

/-- Two states agree but for the spans of some nodes. -/
structure Pass.AgreeBut (ks : List NodeKey) (p p' : Pass) : Prop where
  writer : p.writer = p'.writer
  floor : p.floor = p'.floor
  scopes : p.scopes = p'.scopes
  synthetic : p.synthetic = p'.synthetic
  recording : p.recording = p'.recording
  spans : ∀ k, k ∉ ks → p.spans.get? k = p'.spans.get? k

/-- Two ends of renderings agree but for the spans of some nodes. -/
structure Outcome.AgreeBut (ks : List NodeKey) (o o' : Outcome) : Prop where
  failure : o.failure = o'.failure
  pass : o.pass.AgreeBut ks o'.pass

namespace Pass.AgreeBut

variable {ks : List NodeKey} {p p' q : Pass}

theorem refl (p : Pass) : p.AgreeBut ks p := ⟨rfl, rfl, rfl, rfl, rfl, fun _ _ => rfl⟩

theorem scope (h : p.AgreeBut ks p') : p.scope = p'.scope := by
  unfold Pass.scope
  rw [h.scopes]

theorem mapWriter (h : p.AgreeBut ks p') (f : Writer → Writer) :
    (p.mapWriter f).AgreeBut ks (p'.mapWriter f) :=
  { h with writer := congrArg f h.writer }

theorem enter (h : p.AgreeBut ks p') (key : NodeKey) :
    (p.enter key).1 = (p'.enter key).1 ∧ (p.enter key).2.AgreeBut ks (p'.enter key).2 := by
  simp only [Pass.enter, h.writer, h.floor, h.synthetic, h.recording, true_and]
  exact ⟨rfl, rfl, h.scopes, rfl, rfl, h.spans⟩

theorem leave (h : p.AgreeBut ks p') (v : Visit) (failed : Bool) :
    (p.leave v failed).AgreeBut ks (p'.leave v failed) := by
  have hspan : p.spanOf v = p'.spanOf v := by
    unfold spanOf
    rw [h.writer, h.floor]
  unfold Pass.leave
  rw [hspan]
  refine { h with floor := rfl, recording := rfl, spans := fun k hk => ?_ }
  show SpanTable.get? (if _ then _ else _) k = SpanTable.get? (if _ then _ else _) k
  split
  · by_cases hv : k = v.key
    · rw [hv, SpanTable.get?_insert_self, SpanTable.get?_insert_self]
    · rw [SpanTable.get?_insert_of_ne _ _ hv, SpanTable.get?_insert_of_ne _ _ hv]
      exact h.spans k hk
  · exact h.spans k hk

theorem markSynthetic (h : p.AgreeBut ks p') (key : NodeKey) :
    (p.markSynthetic key).AgreeBut ks (p'.markSynthetic key) := by
  unfold Pass.markSynthetic
  rw [h.synthetic]
  split
  · exact h
  · exact { h with synthetic := rfl }

theorem unmarkSynthetic (h : p.AgreeBut ks p') (key : NodeKey) (before : Bool) :
    (p.unmarkSynthetic key before).AgreeBut ks (p'.unmarkSynthetic key before) := by
  unfold Pass.unmarkSynthetic
  rw [h.synthetic]
  split
  · exact h
  · exact { h with synthetic := rfl }

theorem pushScope (h : p.AgreeBut ks p') (scope : TypeScope) :
    (p.pushScope scope).AgreeBut ks (p'.pushScope scope) :=
  { h with scopes := congrArg (scope :: ·) h.scopes }

theorem popScope (h : p.AgreeBut ks p') : p.popScope.AgreeBut ks p'.popScope :=
  { h with scopes := congrArg List.tail h.scopes }

end Pass.AgreeBut

namespace Outcome.AgreeBut

variable {ks : List NodeKey} {o o' : Outcome}

theorem andThen {f f' : Pass → Outcome} (h : o.AgreeBut ks o')
    (hf : ∀ {p p' : Pass}, p.AgreeBut ks p' → (f p).AgreeBut ks (f' p')) :
    (o.andThen f).AgreeBut ks (o'.andThen f') := by
  unfold Outcome.andThen
  rw [← h.failure]
  split
  · exact hf h.pass
  · exact h

theorem onDone (h : o.AgreeBut ks o') (f : Writer → Writer) :
    (o.onDone (·.mapWriter f)).AgreeBut ks (o'.onDone (·.mapWriter f)) := by
  unfold Outcome.onDone
  rw [← h.failure]
  split
  · exact ⟨rfl, h.pass.mapWriter f⟩
  · exact h

end Outcome.AgreeBut

/-! ### Documents that agree -/

/-- Runs of two documents from states that agree but for the spans of some nodes end so. -/
def Doc.AgreeBut (ks : List NodeKey) (d d' : Doc) : Prop :=
  ∀ (options : Options) (column : Nat) {p p' : Pass}, p.AgreeBut ks p' →
    (d.run options column p).AgreeBut ks (d'.run options column p')

namespace Doc.AgreeBut

variable {ks : List NodeKey} {d d' e e' : Doc}

theorem append (h : d.AgreeBut ks d') (h' : e.AgreeBut ks e') :
    (d ++ e).AgreeBut ks (d' ++ e') := fun options column _ _ hp =>
  (h options column hp).andThen fun hq => h' options column hq

theorem nested (h : d.AgreeBut ks d') : (nested d).AgreeBut ks (nested d') :=
  fun options column _ _ hp => (h options column (hp.mapWriter _)).onDone _

theorem aligned (h : d.AgreeBut ks d') : (aligned d).AgreeBut ks (aligned d') := by
  intro options column p p' hp
  simp only [run, hp.writer]
  refine (h options _ ?_).onDone _
  exact ⟨rfl, hp.floor, hp.scopes, hp.synthetic, hp.recording, hp.spans⟩

theorem node (key : NodeKey) (h : d.AgreeBut ks d') : (node key d).AgreeBut ks (node key d') := by
  intro options column p p' hp
  obtain ⟨hvisit, hentered⟩ := hp.enter key
  have hbody := h options column hentered
  simp only [run, hvisit, hbody.failure]
  exact ⟨hbody.failure, hbody.pass.leave _ _⟩

theorem synthetic (key : NodeKey) (h : d.AgreeBut ks d') :
    (synthetic key d).AgreeBut ks (synthetic key d') := by
  intro options column p p' hp
  have hbody := h options column (hp.markSynthetic key)
  simp only [run, hp.synthetic]
  exact ⟨hbody.failure, hbody.pass.unmarkSynthetic _ _⟩

theorem inside (scope : TypeScope) (h : d.AgreeBut ks d') :
    (inside scope d).AgreeBut ks (inside scope d') := fun options column _ _ hp =>
  have hbody := h options column (hp.pushScope scope)
  ⟨hbody.failure, hbody.pass.popScope⟩

theorem perScope {d d' : Option TypeScope → Doc} (h : ∀ scope, (d scope).AgreeBut ks (d' scope)) :
    (perScope d).AgreeBut ks (perScope d') := by
  intro options column p p' hp
  simp only [run, hp.scope]
  exact h _ options column hp

theorem unsupported (gap : Gap) (h : d.AgreeBut ks d') :
    (unsupported gap d).AgreeBut ks (unsupported gap d') := by
  intro options column p p' hp
  simp only [run]
  split
  · exact ⟨rfl, hp⟩
  · exact h options column hp

theorem refl (d : Doc) : d.AgreeBut ks d := by
  induction d with
  | empty | malformed => exact fun _ _ _ _ hp => ⟨rfl, hp⟩
  | text s => exact fun _ _ _ _ hp => ⟨rfl, hp.mapWriter (·.write s)⟩
  | newline => exact fun _ _ _ _ hp => ⟨rfl, hp.mapWriter (·.newline)⟩
  | lineStart => exact fun _ _ _ _ hp => ⟨rfl, hp.mapWriter (·.ensureLineStart)⟩
  | typeGap => exact fun options _ _ _ hp => ⟨rfl, hp.mapWriter (·.blankLines options.typeGap)⟩
  | separator s =>
    exact fun options column _ _ hp =>
      ⟨rfl, hp.mapWriter fun w => (w.writeSeparator s options.wrapColumn column).1⟩
  | append _ _ ih ih' => exact ih.append ih'
  | nested _ ih => exact ih.nested
  | aligned _ ih => exact ih.aligned
  | node key _ ih => exact ih.node key
  | synthetic key _ ih => exact ih.synthetic key
  | inside scope _ ih => exact ih.inside scope
  | perScope _ ih => exact .perScope ih
  | unsupported gap _ ih => exact ih.unsupported gap

theorem trans (h : d.AgreeBut ks d') (h' : d'.AgreeBut ks e) : d.AgreeBut ks e := by
  intro options column p p' hp
  have hd := h options column (.refl p)
  have hd' := h' options column hp
  have hpass := hd.pass
  exact
    { failure := hd.failure.trans hd'.failure
      pass :=
        { writer := hpass.writer.trans hd'.pass.writer
          floor := hpass.floor.trans hd'.pass.floor
          scopes := hpass.scopes.trans hd'.pass.scopes
          synthetic := hpass.synthetic.trans hd'.pass.synthetic
          recording := hpass.recording.trans hd'.pass.recording
          spans := fun k hk => (hpass.spans k hk).trans (hd'.pass.spans k hk) } }

end Doc.AgreeBut

namespace Doc

/-- Documents that write the same and show some nodes only agree but for the spans of these. -/
theorem AgreeBut.of_even {ks : List NodeKey} {d d' : Doc} (hd : d.ShowsOnly ks)
    (hd' : d'.ShowsOnly ks)
    (h : ∀ options column {p p' : Pass}, p.writer = p'.writer → p.scope = p'.scope →
      p.floor = p'.floor → (d.run options column p).Even (d'.run options column p')) :
    d.AgreeBut ks d' := by
  intro options column p p' hp
  have heven := h options column hp.writer hp.scope hp.floor
  obtain ⟨h1, h2, h3⟩ := run_surroundings options d column p
  obtain ⟨h1', h2', h3'⟩ := run_surroundings options d' column p'
  refine ⟨heven.failure, heven.writer, heven.floor, ?_, ?_, ?_, fun k hk => ?_⟩
  · rw [h1, h1', hp.scopes]
  · rw [h2, h2', hp.synthetic]
  · rw [h3, h3', hp.recording]
  · rw [get?_run_of_not_mem fun hmem => hk (hd _ _ k hmem),
      get?_run_of_not_mem fun hmem => hk (hd' _ _ k hmem)]
    exact hp.spans k hk

/-- A document agrees with itself without spans but for the spans of its nodes. -/
theorem ShowsOnly.agreeBut_synthetic {ks : List NodeKey} {d : Doc} (h : d.ShowsOnly ks)
    (key : NodeKey) : d.AgreeBut ks (.synthetic key d) := by
  refine .of_even h (fun scope marks k hk => ?_) fun options column {p p'} hw hs hf => ?_
  · rw [recorded_synthetic] at hk
    exact h _ _ k hk
  · have hbody : (d.run options column p).Even (d.run options column (p'.markSynthetic key)) :=
      run_even options d column (by simpa) (by simpa) (by simpa)
    exact ⟨⟨hbody.failure, by simpa [run, Outcome.mapPass] using hbody.writer⟩,
      by simpa [run, Outcome.mapPass] using hbody.floor⟩

/-- A node agrees with another in its place but for the spans of the two and of what they show. -/
theorem ShowsOnly.agreeBut_node {ks : List NodeKey} {d : Doc} (h : d.ShowsOnly ks)
    {key key' : NodeKey} (hkey : key ∈ ks) (hkey' : key' ∈ ks) :
    (Doc.node key d).AgreeBut ks (.node key' d) := by
  have hshows : ∀ key ∈ ks, (Doc.node key d).ShowsOnly ks := by
    intro key hkey scope marks k hk
    by_cases hmarked : key ∈ marks
    · rw [recorded_node_of_mem _ _ hmarked] at hk
      cases hk
    · rw [recorded_node_of_not_mem _ _ hmarked, Forest.labels, Forest.labels,
        List.append_nil] at hk
      rcases List.mem_cons.1 hk with rfl | hk
      · exact hkey
      · exact h _ _ k hk
  refine .of_even (hshows key hkey) (hshows key' hkey') fun options column {p p'} hw hs hf => ?_
  have hbody : (d.run options column (p.enter key).2).Even
      (d.run options column (p'.enter key').2) := run_even options d column hw hs rfl
  exact hbody.leave hw hf key key'

/-- A mark on a node that is not shown makes no difference. -/
theorem ShowsOnly.synthetic_agreeBut {ks shown : List NodeKey} {d : Doc} (h : d.ShowsOnly shown)
    {key : NodeKey} (hkey : key ∉ shown) : (Doc.synthetic key d).AgreeBut ks d := by
  intro options column p p' hp
  rw [run_synthetic_of_not_shown fun _ hk => hkey (h _ _ key hk)]
  exact AgreeBut.refl d options column hp

/-! ### Surroundings -/

/-- Two documents that differ where one has `a` and the other has `b`. -/
inductive Swaps (a b : Doc) : Doc → Doc → Prop where
  | here : Swaps a b a b
  | same (d : Doc) : Swaps a b d d
  | append {d d' e e' : Doc} :
    Swaps a b d d' → Swaps a b e e' → Swaps a b (d ++ e) (d' ++ e')
  | nested {d d' : Doc} : Swaps a b d d' → Swaps a b (.nested d) (.nested d')
  | aligned {d d' : Doc} : Swaps a b d d' → Swaps a b (.aligned d) (.aligned d')
  | node (key : NodeKey) {d d' : Doc} : Swaps a b d d' → Swaps a b (.node key d) (.node key d')
  | synthetic (key : NodeKey) {d d' : Doc} :
    Swaps a b d d' → Swaps a b (.synthetic key d) (.synthetic key d')
  | inside (scope : TypeScope) {d d' : Doc} :
    Swaps a b d d' → Swaps a b (.inside scope d) (.inside scope d')
  | perScope {d d' : Option TypeScope → Doc} :
    (∀ scope, Swaps a b (d scope) (d' scope)) → Swaps a b (.perScope d) (.perScope d')
  | unsupported (gap : Gap) {d d' : Doc} :
    Swaps a b d d' → Swaps a b (.unsupported gap d) (.unsupported gap d')

/-- What is put around documents that agree agrees. -/
theorem Swaps.agreeBut {ks : List NodeKey} {a b d d' : Doc} (hab : a.AgreeBut ks b)
    (h : Swaps a b d d') : d.AgreeBut ks d' := by
  induction h with
  | here => exact hab
  | same d => exact .refl d
  | append _ _ ih ih' => exact ih.append ih'
  | nested _ ih => exact ih.nested
  | aligned _ ih => exact ih.aligned
  | node key _ ih => exact ih.node key
  | synthetic key _ ih => exact ih.synthetic key
  | inside scope _ ih => exact ih.inside scope
  | perScope _ ih => exact .perScope ih
  | unsupported gap _ ih => exact ih.unsupported gap

end Doc

/-! ### Trees -/

/-- Whether spans are kept makes no difference to the document of the tree as such. -/
theorem Subject.treeDoc_withSynthetic (l : Language) (setting : Setting) (manner : Manner)
    (synthetic : Bool) (s : Subject) :
    s.treeDoc l setting { manner with synthetic } = s.treeDoc l setting manner := by
  cases s <;> rfl

/-- A tree agrees with itself without spans but for the spans of its nodes. -/
theorem Language.Known.agreeBut_synthetic {l : Language} (hl : l.Known) (setting : Setting)
    (manner : Manner) (s : Subject) :
    (s.document l setting { manner with synthetic := false }).AgreeBut s.outline.keys
      (s.document l setting { manner with synthetic := true }) := by
  have hshows := hl.showsOnly_treeDoc setting manner s
  simp only [Subject.document, Subject.treeDoc_withSynthetic]
  cases s.key? with
  | some key => exact hshows.agreeBut_synthetic key
  | none => exact .refl _

/-! ### Loops -/

namespace Dialect

variable (d : Dialect) {ks : List NodeKey}

/-- Loops agree whose conditions agree and whose bodies are written alike. -/
theorem whileLoop_agreeBut {c c' : Context} {e e' : Expression} {body : Statement}
    (he : (c.expression e).AgreeBut ks (c'.expression e')) (hbody : c.body body = c'.body body) :
    (d.language.statements.whileLoop c e body).AgreeBut ks
      (d.language.statements.whileLoop c' e' body) := by
  cases d with
  | csharp =>
    show (text "while (" ++ c.expression e ++ line ")" ++ Brace.body c body).AgreeBut ks
      (text "while (" ++ c'.expression e' ++ line ")" ++ Brace.body c' body)
    rw [Brace.body, Brace.body, hbody]
    exact (((AgreeBut.refl _).append he).append (.refl _)).append (.refl _)
  | swift lowercaseCases =>
    show (text "while " ++ c.expression e ++ Swift.openBody c body).AgreeBut ks
      (text "while " ++ c'.expression e' ++ Swift.openBody c' body)
    rw [Swift.openBody, Swift.openBody, hbody]
    exact ((AgreeBut.refl _).append he).append (.refl _)

/-- The condition that no tree has agrees with one that a tree has. -/
theorem condition_agreeBut (setting : Setting) (id : NodeId) (m k : Nat)
    (hendless : Language.endless.key ∈ ks) (hid : (⟨.expression, id⟩ : NodeKey) ∈ ks) :
    ((d.language.context setting (m + 1)).expression Language.endless).AgreeBut ks
      ((d.language.context setting (k + 1)).expression ⟨id, .boolean true⟩) := by
  have htext : (text "true").ShowsOnly ks := fun _ _ _ hk => nomatch hk
  cases d <;> exact htext.agreeBut_node hendless hid

end Dialect

namespace Language.Known

variable {l : Language} {setting : Setting} {condition : NodeId} {body : Statement}

/-- A loop over the condition that no tree has agrees with one over a condition that always
holds. -/
theorem whileLoop_endless (hl : l.Known) {m k : Nat} (hm : body.size ≤ m) (hk : body.size ≤ k) :
    (l.statements.whileLoop (l.context setting m) endless body).AgreeBut
      [endless.key, ⟨.expression, condition⟩]
      (l.statements.whileLoop (l.context setting k) ⟨condition, .boolean true⟩ body) := by
  cases hl with
  | dialect d =>
    have hsize : body.outline.size = body.size := body.size_outline
    have hpos : 0 < body.size := hsize ▸ (Part.body body).size_pos
    refine d.whileLoop_agreeBut ?_ (d.composes.doc_context setting (.body body)
      (Nat.le_trans (Nat.le_of_eq hsize) hm) (Nat.le_trans (Nat.le_of_eq hsize) hk))
    obtain ⟨m, rfl⟩ := Nat.exists_eq_add_one_of_ne_zero (show m ≠ 0 by omega)
    obtain ⟨k, rfl⟩ := Nat.exists_eq_add_one_of_ne_zero (show k ≠ 0 by omega)
    exact d.condition_agreeBut setting condition m k (by simp) (by simp)
  | @plain hooks _ =>
    -- The plain rules have no words for loops.
    have hgap : ∀ n, ((Language.plain hooks).context setting n).unsupported "while loop" =
        Doc.unsupported ⟨hooks.name, "while loop", none⟩
          (hooks.inlineComment (Gap.message ⟨hooks.name, "while loop", none⟩)) := fun n => by
      have hspeaks := (Language.plain hooks).context_speaks setting n
      rw [Context.unsupported, hspeaks.language, hspeaks.remark]
      rfl
    show (((Language.plain hooks).context setting m).unsupported "while loop").AgreeBut _
      (((Language.plain hooks).context setting k).unsupported "while loop")
    rw [hgap, hgap]
    exact .refl _

/-- A loop without a condition agrees with one over a condition that always holds, but for the span
of the condition. -/
theorem infiniteLoop_agreeBut (hl : l.Known) (setting : Setting) (manner : Manner) (id : NodeId)
    (hkey : endless.key ∉
      (Statement.mk id (.whileLoop ⟨condition, .boolean true⟩ body)).outline.keys) :
    ((Subject.statement ⟨id, .infiniteLoop body⟩).treeDoc l setting manner).AgreeBut
      [endless.key, ⟨.expression, condition⟩]
      ((Subject.statement ⟨id, .whileLoop ⟨condition, .boolean true⟩ body⟩).treeDoc l setting
        manner) := by
  obtain ⟨faults, hobeys⟩ := hl.obeys
  have hwhile := hobeys.context setting (body.size + 1)
  have hshows : (l.statementRule (l.context setting (body.size + 1))
      ⟨id, .whileLoop ⟨condition, .boolean true⟩ body⟩).ShowsOnly
        (StatementForm.whileLoop ⟨condition, .boolean true⟩ body).outline.keys :=
    showsOnly_of_follows (n := .expression endless) fun scope => hobeys.statement _ scope hwhile
  have hrule : (l.statementRule (l.context setting body.size) ⟨id, .infiniteLoop body⟩).AgreeBut
      [endless.key, ⟨.expression, condition⟩]
      (l.statementRule (l.context setting (body.size + 1))
        ⟨id, .whileLoop ⟨condition, .boolean true⟩ body⟩) :=
    ((hl.whileLoop_endless (Nat.le_refl _) (Nat.le_succ _)).synthetic _).trans
      (hshows.synthetic_agreeBut fun hmem => hkey (List.mem_cons_of_mem _ hmem))
  have hnode : (l.statementNode (l.context setting body.size) ⟨id, .infiniteLoop body⟩).AgreeBut
      [endless.key, ⟨.expression, condition⟩]
      (l.statementNode (l.context setting (body.size + 1))
        ⟨id, .whileLoop ⟨condition, .boolean true⟩ body⟩) :=
    (hrule.node ⟨.statement, id⟩).append (.refl _)
  have hsize : (StatementForm.whileLoop ⟨condition, .boolean true⟩ body).size = body.size + 1 :=
    Nat.add_comm 1 body.size
  simp only [Subject.treeDoc, statementDoc, bodyDoc, Statement.size, hsize, context]
  split <;> exact hnode

end Language.Known

/-- Two documents that differ only in that one has a tree where the other has the tree rendered
without spans end alike from every state: with the same error or none, with the same writer, and
with the same spans of all nodes that the tree does not have, whether they lie before, around or
after it. The same goes for a loop without a condition in the place of a loop over a literal that is
true, but for the span of the literal. The number of the condition that no tree has is not that of a
node. -/
theorem Language.Known.synthetic_is_transparent {l : Language} (hl : l.Known) (setting : Setting)
    (manner : Manner) :
    (∀ (s : Subject) (d d' : Doc),
      Swaps (s.document l setting { manner with synthetic := false })
        (s.document l setting { manner with synthetic := true }) d d' →
      ∀ options column p,
        (d.run options column p).AgreeBut s.outline.keys (d'.run options column p)) ∧
    (∀ (id condition : NodeId) (body : Statement) (d d' : Doc),
      let literal : Expression := ⟨condition, .boolean true⟩
      let loop : Statement := ⟨id, .infiniteLoop body⟩
      let spelledOut : Statement := ⟨id, .whileLoop literal body⟩
      endless.key ∉ spelledOut.outline.keys →
      Swaps ((Subject.statement loop).treeDoc l setting manner)
        ((Subject.statement spelledOut).treeDoc l setting manner) d d' →
      ∀ options column p,
        (d.run options column p).AgreeBut [endless.key, literal.key]
          (d'.run options column p)) := by
  constructor
  · intro s d d' hswaps options column p
    exact hswaps.agreeBut (hl.agreeBut_synthetic setting manner s) options column (.refl p)
  · intro id condition body d d' literal loop spelledOut hkey hswaps options column p
    exact hswaps.agreeBut (hl.infiniteLoop_agreeBut setting manner id hkey) options column (.refl p)

/-- What a block writes around the document of its only statement. -/
def Doc.inBlock (d : Doc) : Doc :=
  .node ⟨.statement, 1⟩ (Brace.braced (d ++ .empty)) ++ .lineStart

theorem Doc.Swaps.inBlock {a b : Doc} : Swaps a b a.inBlock b.inBlock :=
  .append (.node _ (.append (.append (.same _) (.nested (.append .here (.same _)))) (.same _)))
    (.same _)

/-- A loop without an end, but for what is in it. -/
def Statement.breaking : Statement := ⟨2, .infiniteLoop ⟨3, .breakLoop⟩⟩

/-- The same with a condition. -/
def Statement.spelledOut : Statement := ⟨2, .whileLoop ⟨1, .boolean true⟩ ⟨3, .breakLoop⟩⟩

theorem Statement.breaking_is_transparent :
    let plain : Manner := ⟨false, false, none⟩
    let setting : Setting := .of .initial none false
    let written (s : Statement) := (Subject.statement s).document .csharp setting plain
    let loop := written breaking
    let unseen :=
      (Subject.statement breaking).document .csharp setting { plain with synthetic := true }
    let longer := written spelledOut
    Language.csharp.Known ∧
    (Swaps loop unseen loop.inBlock unseen.inBlock ∧
      (loop.inBlock.run .initial 0 (.initial .initial)).AgreeBut breaking.outline.keys
        (unseen.inBlock.run .initial 0 (.initial .initial))) ∧
    (Language.endless.key ∉ spelledOut.outline.keys ∧
      Swaps loop longer loop.inBlock longer.inBlock ∧
      (loop.inBlock.run .initial 0 (.initial .initial)).AgreeBut
        [Language.endless.key, ⟨.expression, 1⟩]
        (longer.inBlock.run .initial 0 (.initial .initial))) ∧
    (loop.inBlock = written ⟨1, .block [breaking]⟩ ∧
      longer.inBlock = written ⟨1, .block [spelledOut]⟩) ∧
    (loop.inBlock.run .initial 0 (.initial .initial)).pass.writer.text =
      "\x7b\n    while (true)\n    \x7b\n        break;\n    \x7d\n\x7d\n" := by
  intro plain setting written loop unseen longer
  have hl : Language.csharp.Known := .dialect .csharp
  have hkey : Language.endless.key ∉ spelledOut.outline.keys := by decide
  obtain ⟨hunseen, hlonger⟩ := hl.synthetic_is_transparent setting plain
  refine ⟨hl, ⟨.inBlock, ?_⟩, ⟨hkey, .inBlock, ?_⟩, ⟨rfl, rfl⟩, by decide +kernel⟩
  · exact hunseen (.statement breaking) _ _ .inBlock _ _ _
  · exact hlonger 2 1 ⟨3, .breakLoop⟩ _ _ hkey .inBlock _ _ _

end SourcePrinter
