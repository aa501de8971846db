import SourcePrinter.Proofs.Depth
import SourcePrinter.Proofs.Dialect
import SourcePrinter.Proofs.Shift
import SourcePrinter.Proofs.Surroundings

/-! The marks of Swift types that may be absent. A type of most kinds ends in the mark of the
nullability in force, and has none where a present type is asked for. A type that stands for another
shows what the other says, whatever its own nullability is. -/

namespace SourcePrinter

/-! ### Texts of documents -/

/-- Two ends of renderings agree on the error and on the writer. -/
structure Outcome.Alike (o o' : Outcome) : Prop where
  failure : o.failure = o'.failure
  writer : o.pass.writer = o'.pass.writer

namespace Outcome.Alike

variable {o o' : Outcome}

theorem andThen {f f' : Pass → Outcome} (h : o.Alike o') (hf : (f o.pass).Alike (f' o'.pass)) :
    (o.andThen f).Alike (o'.andThen f') := by
  unfold Outcome.andThen
  rw [← h.failure]
  split
  · exact hf
  · exact h

theorem onDone {f f' : Pass → Pass} (h : o.Alike o')
    (hf : (f o.pass).writer = (f' o'.pass).writer) : (o.onDone f).Alike (o'.onDone f') := by
  unfold Outcome.onDone
  rw [← h.failure]
  split
  · exact ⟨rfl, hf⟩
  · exact h

end Outcome.Alike

/-- At the margin nothing comes before a text. -/
theorem Writer.text_write_of_margin {w : Writer} {s : String} (hw : w.level = 0)
    (hs : '\n' ∉ s.toList) : (w.write s).text = w.text ++ s := by
  apply String.toList_injective
  rw [String.toList_append]
  by_cases hne : s.toList = []
  · simp [write, hne]
  · rw [write, writeChars_text hs hne, due_of_margin hw, List.append_nil]

namespace Doc

variable {options : Options} {d : Doc}

/-- A run depends on the writer and on the type around the place, but not on the spans. -/
theorem run_alike (options : Options) (d : Doc) (column : Nat) {p p' : Pass}
    (hw : p.writer = p'.writer) (hs : p.scope = p'.scope) :
    (d.run options column p).Alike (d.run options column p') := by
  -- On the document. Every part leaves the type around the place as it was, so that the parts
  -- after it start alike too.
  induction d generalizing column p p' with
  | empty | malformed => exact ⟨rfl, hw⟩
  | text s => exact ⟨rfl, congrArg (·.write s) hw⟩
  | newline => exact ⟨rfl, congrArg (·.newline) hw⟩
  | lineStart => exact ⟨rfl, congrArg (·.ensureLineStart) hw⟩
  | typeGap => exact ⟨rfl, congrArg (·.blankLines options.typeGap) hw⟩
  | separator s =>
    exact ⟨rfl, congrArg (fun w => (w.writeSeparator s options.wrapColumn column).1) hw⟩
  | append first second ih ih' =>
    have hfirst := ih column hw hs
    refine hfirst.andThen (ih' column hfirst.writer ?_)
    rw [run_scope, run_scope, hs]
  | nested body ih =>
    have hbody : (body.run options column (p.mapWriter (·.indent))).Alike
        (body.run options column (p'.mapWriter (·.indent))) := ih column (congrArg (·.indent) hw) hs
    exact hbody.onDone (congrArg (·.dedent) hbody.writer)
  | aligned body ih =>
    simp only [run, hw]
    have hbody : (body.run options p'.writer.beginList.2.1
          { p with writer := p'.writer.beginList.1 }).Alike
        (body.run options p'.writer.beginList.2.1 { p' with writer := p'.writer.beginList.1 }) :=
      ih _ rfl hs
    exact hbody.onDone (congrArg (·.endList p'.writer.beginList.2.2) hbody.writer)
  | node key body ih =>
    have hbody : (body.run options column (p.enter key).2).Alike
        (body.run options column (p'.enter key).2) := ih column hw hs
    exact ⟨hbody.failure, hbody.writer⟩
  | synthetic key body ih =>
    have hbody : (body.run options column (p.markSynthetic key)).Alike
        (body.run options column (p'.markSynthetic key)) := ih column (by simpa) (by simpa)
    exact ⟨hbody.failure, by simpa [run, Outcome.mapPass] using hbody.writer⟩
  | inside scope body ih =>
    have hbody : (body.run options column (p.pushScope scope)).Alike
        (body.run options column (p'.pushScope scope)) := ih column hw rfl
    exact ⟨hbody.failure, hbody.writer⟩
  | perScope body ih =>
    simp only [run, hs]
    exact ih _ column hw hs
  | unsupported gap remark ih =>
    simp only [run]
    split
    · exact ⟨rfl, hw⟩
    · exact ih column hw hs

/-- The text of a document, or the error that its rendering ends with. -/
def written (d : Doc) (options : Options) : Except RenderError String :=
  (d.render options).map Rendering.text

theorem written_eq (d : Doc) (options : Options) : d.written options =
    match (d.write options (.initial options)).failure with
    | none => .ok (d.write options (.initial options)).pass.writer.text
    | some e => .error e := by
  unfold written render
  cases hd : (d.write options (.initial options)).failure <;> simp [hd, Except.map]

/-- A node is written as what stands in it. -/
theorem written_node (key : NodeKey) (d : Doc) :
    (node key d).written options = d.written options := by
  have hbody : (d.run options 0 (Pass.enter (.initial options) key).2).Alike
      (d.run options 0 (.initial options)) := run_alike options d 0 rfl rfl
  have hnode : ((node key d).write options (.initial options)).Alike
      (d.write options (.initial options)) := ⟨hbody.failure, hbody.writer⟩
  rw [written_eq, written_eq, hnode.failure, hnode.writer]

/-- A text in one line is written at the end of what stands before it. -/
theorem written_append_text (d : Doc) {s : String} (hs : '\n' ∉ s.toList) :
    (d ++ text s).written options = (d.written options).map (· ++ s) := by
  have hrun : (d ++ text s).write options (.initial options) =
      (d.write options (.initial options)).andThen ((text s).run options 0) := rfl
  rw [written_eq, written_eq, hrun, Outcome.andThen]
  cases hd : (d.write options (.initial options)).failure with
  | some e => simp only [hd, Except.map]
  | none =>
    obtain ⟨f, hruns⟩ := runs_of_done d 0 (.initial options) hd
    exact congrArg Except.ok (Writer.text_write_of_margin hruns.level hs)

end Doc

/-! ### Marks -/

/-- A view of a type reference has its parts. -/
theorem TypeRef.size_view (t : TypeRef) (n : Nullability) : (t.view n).size = t.size := by
  unfold view
  split
  · rfl
  · cases t
    rfl

/-- The type that another stands for. -/
def TypeForm.standsFor? : TypeForm → Option TypeRef
  | .kindOf target | .constant target => some target
  | _ => none

namespace Swift

open Doc

/-- The mark of a nullability. -/
def mark : Nullability → String
  | .nullableNotUnwrapped => "?"
  | .nullableUnwrapped | .unknown => "!"
  | .default | .notNullable => ""

theorem lineFeed_not_mem_mark (n : Nullability) : '\n' ∉ (mark n).toList := by
  cases n <;> decide

/-- Types of this kind end in a mark of their own. -/
def IsMarkable : TypeForm → Prop
  | .named _ | .pointer _ .pointer | .array .. | .dictionary .. | .tuple _ | .sequence _ => True
  | .predefined type => type ≠ .void
  | _ => False

section

variable {options : Options} {setting : Setting} {lowercaseCases : Bool} {t u : TypeRef}

/-- The mark of the nullability in force is written at the end. -/
theorem written_append_optionalMark (d : Doc) (t : TypeRef) :
    (d ++ optionalMark t).written options = (d.written options).map (· ++ mark t.effective) := by
  have hempty : (d ++ Doc.empty).written options = (d ++ text "").written options := rfl
  rw [← written_append_text d (lineFeed_not_mem_mark t.effective), optionalMark]
  cases t.effective with
  | default | notNullable => exact hempty
  | nullableUnwrapped | nullableNotUnwrapped | unknown => rfl

/-- The rule of a markable kind writes the mark at the end and is the same before it. -/
theorem typeRule_of_isMarkable (lowercaseCases : Bool) {form : TypeForm} (h : IsMarkable form)
    (c : Context) : ∃ bare : Doc, ∀ t : TypeRef, t.form = form →
      (Language.swift lowercaseCases).typeRule c t = bare ++ optionalMark t := by
  cases form with
  | named | array | dictionary | tuple | sequence =>
    exact ⟨_, fun t ht => by rw [Language.typeRule, ht]; rfl⟩
  | predefined type =>
    have hvoid : (type != .void) = true := bne_iff_ne.2 h
    refine ⟨text (predefinedName type), fun t ht => ?_⟩
    rw [Language.typeRule, ht]
    show text _ ++ when (type != .void) (optionalMark t) = _
    rw [hvoid]
    rfl
  | pointer target kind =>
    cases kind with
    | pointer => exact ⟨_, fun t ht => by rw [Language.typeRule, ht]; rfl⟩
    | reference => exact h.elim
  | kindOf | constant | inlineBlock | range | unknown => exact h.elim

/-- Only the kind of a type and the nullability in force have a say in what is written for it. -/
theorem typeRule_congr (hform : t.form = u.form) (heffective : t.effective = u.effective)
    (c : Context) : (Language.swift lowercaseCases).typeRule c t =
      (Language.swift lowercaseCases).typeRule c u := by
  have hmark : optionalMark t = optionalMark u := by rw [optionalMark, optionalMark, heffective]
  have hmarked : isMarked t = isMarked u := by rw [isMarked, isMarked, heffective]
  unfold Language.typeRule
  rw [hform]
  cases u.form with
  | named | predefined | array | dictionary | tuple | sequence =>
    simp only [Language.swift, types, hmark]
  | pointer target kind => cases kind <;> simp only [Language.swift, types, hmark]
  | inlineBlock => simp only [Language.swift, types, hmark, hmarked]
  | kindOf | constant | range | unknown => rfl

/-- Where a present type is asked for, the nullability of the reference itself does not count. -/
theorem presentType_withExplicit (depth : Nat) (t : TypeRef) (n : Nullability) :
    presentType ((Language.swift lowercaseCases).context setting depth) (t.withExplicit n) =
      presentType ((Language.swift lowercaseCases).context setting depth) t := by
  cases depth with
  | zero => rfl
  | succ depth =>
    refine congrArg (node t.key) (typeRule_congr ?_ ?_ _)
    · rw [TypeRef.form_view, TypeRef.form_view]
      rfl
    · rw [TypeRef.effective_view, TypeRef.effective_view]
      rfl

end

/-! ### Places of present types -/

/-- The places of a type that has to be present, with what stands around it. -/
inductive Place where
  | instantiation (arguments : List Argument)
  | enumCase (value : String)
  | check (value : Expression)
  | cast (value : Expression) (throws : Bool)
  | bound (name : String) (before after : List TypeRef)
  | base (before after : List TypeRef)
  | extended (definition : TypeDefinition) (body : ClassBody) (more : List TypeRef)
  | handler (block : CatchBlock)
  | attached (a : Attribute)

/-- What is written at a place. -/
def Place.doc (lowercaseCases : Bool) (c : Context) (t : TypeRef) : Place → Doc
  | instantiation arguments => (expressions lowercaseCases).newInstance c t arguments
  | enumCase value => (expressions lowercaseCases).enumValue c t value
  | check value => (expressions lowercaseCases).typeCheck c value t
  | cast value throws => (expressions lowercaseCases).typeCast c ⟨value, t, throws⟩
  | bound name before after => genericParameter c ⟨name, before ++ t :: after⟩
  | base before after => baseList c (before ++ t :: after)
  | extended definition body more => extensionType c definition { body with ancestors := t :: more }
  | handler block => pattern c { block with type := some t }
  | attached a => units.attributeLine c { a with type := t }

/-- A place shows of a type what is written for it when it is present. -/
theorem Place.doc_congr {lowercaseCases : Bool} {c : Context} {t u : TypeRef}
    (h : presentType c t = presentType c u) (place : Place) :
    place.doc lowercaseCases c t = place.doc lowercaseCases c u := by
  have hsome : ∀ (before after : List TypeRef) (v : TypeRef),
      (before ++ v :: after).isEmpty = false := fun before after v => by simp
  cases place with
  | instantiation | enumCase | check | cast | extended | attached =>
    simp only [doc, expressions, extensionType, units, h]
  | bound => simp only [doc, genericParameter, List.map_append, List.map_cons, h, hsome]
  | base => simp only [doc, baseList, List.map_append, List.map_cons, h, hsome]
  | handler block =>
    simp only [doc, pattern]
    cases block.name with
    | none | some => simp only [h]

/-! ### Main result -/

section

variable {options : Options} {setting : Setting} {lowercaseCases : Bool} {t target : TypeRef}

/-- A type is written by its rule, in a context that reaches its parts. -/
theorem written_typeDoc (l : Language) (t : TypeRef) :
    (l.typeDoc setting t).written options =
      (l.typeRule (l.context setting (t.size - 1)) t).written options := by
  cases t
  exact written_node _ _

/-- What is written for a type with another nullability is its view. -/
theorem written_typeDocAs (l : Language) (t : TypeRef) (n : Nullability) :
    (l.typeDocAs setting n t).written options = (l.typeDoc setting (t.view n)).written options := by
  rw [written_typeDoc, t.size_view]
  cases t
  exact written_node _ _

/-- A type that stands for another is written as the other. -/
theorem written_of_standsFor (h : t.form.standsFor? = some target) :
    ((Language.swift lowercaseCases).typeDoc setting t).written options =
      ((Language.swift lowercaseCases).typeDoc setting target).written options := by
  have hrule : ∀ c, (Language.swift lowercaseCases).typeRule c t = c.typeRef target := by
    intro c
    unfold Language.typeRule
    cases hform : t.form with
    | kindOf | constant =>
      rw [hform] at h
      cases h
      rfl
    | _ => rw [hform] at h; cases h
  have hsize : target.size ≤ t.size - 1 := by
    cases t with | mk id form => _
    cases form with
    | kindOf | constant =>
      cases h
      simp only [TypeRef.size, TypeForm.size]
      omega
    | _ => cases h
  have houtline : target.outline.size ≤ target.size := Nat.le_of_eq target.size_outline
  have hreach := (Language.swift_composes lowercaseCases).doc_context setting (.typeRef target)
    (Nat.le_trans houtline hsize) houtline
  rw [written_typeDoc, hrule]
  exact congrArg (·.written options) hreach

end

/-- Types of Swift that may be absent. A type of a kind that has a mark is written as its present
view with the mark of the nullability in force after it, and so is a type that stands for another
as long as it is present itself. But a type that stands for another, and its present view, are
written as the other, whatever their own nullability is. Where a type has to be present, its present
view is written for it, and so the same whatever nullability it was given. -/
theorem nullability_is_marked (lowercaseCases : Bool) (options : Options) (setting : Setting)
    (t : TypeRef) :
    let l := Language.swift lowercaseCases
    let shown := fun u => (l.typeDoc setting u).written options
    let present := t.view .notNullable
    (IsMarkable t.form ∨ t.form.standsFor?.isSome ∧ t.effective = .notNullable →
      shown t = (shown present).map (· ++ mark t.effective)) ∧
    (∀ target, t.form.standsFor? = some target →
      shown t = shown target ∧ shown present = shown target) ∧
    (l.typeDocAs setting .notNullable t).written options = shown present ∧
    ∀ depth (place : Place) n,
      place.doc lowercaseCases (l.context setting depth) (t.withExplicit n) =
        place.doc lowercaseCases (l.context setting depth) t := by
  intro l shown present
  have hform : present.form = t.form := t.form_view .notNullable
  have heffective : present.effective = .notNullable := t.effective_view .notNullable
  have hstands : ∀ target, t.form.standsFor? = some target →
      shown t = shown target ∧ shown present = shown target := fun target h =>
    ⟨written_of_standsFor h, written_of_standsFor (hform ▸ h)⟩
  refine ⟨?_, hstands, written_typeDocAs l t .notNullable,
    fun depth place n => place.doc_congr (presentType_withExplicit depth t n)⟩
  rintro (hmarkable | ⟨hsome, hpresent⟩)
  -- The type and its present view have one form, so they differ in the mark alone.
  · obtain ⟨bare, hbare⟩ := typeRule_of_isMarkable lowercaseCases hmarkable
      (l.context setting (t.size - 1))
    have hsize : present.size = t.size := t.size_view .notNullable
    have ht : shown t = (bare.written options).map (· ++ mark t.effective) := by
      rw [← written_append_optionalMark, ← hbare t rfl]
      exact written_typeDoc l t
    have hp : shown present = (bare.written options).map (· ++ mark .notNullable) := by
      rw [← heffective, ← written_append_optionalMark, ← hbare present hform, ← hsize]
      exact written_typeDoc l present
    rw [ht, hp]
    cases bare.written options <;> simp [Except.map, mark]
  · obtain ⟨target, htarget⟩ := Option.isSome_iff_exists.1 hsome
    rw [hpresent, (hstands target htarget).1, (hstands target htarget).2]
    cases shown target <;> simp [Except.map, mark]

/-- A list of widgets, which are types referred to by name, that access must unwrap. -/
def optionalWidgets : TypeRef :=
  (TypeRef.ofForm 2 (.array (.ofForm 1 (.named ⟨"Widget", none, []⟩)) [] .dynamic)).withExplicit
    .nullableNotUnwrapped

theorem optionalWidgets_is_marked :
    IsMarkable optionalWidgets.form ∧ optionalWidgets.effective = .nullableNotUnwrapped ∧
      ((Language.swift true).typeDoc (.of .initial none false) optionalWidgets).written .initial =
        .ok "[Widget!]?" := by
  have hmarked := (nullability_is_marked true .initial (.of .initial none false)
    optionalWidgets).1 (.inl trivial)
  have hpresent : ((Language.swift true).typeDoc (.of .initial none false)
      (optionalWidgets.view .notNullable)).written .initial = .ok "[Widget!]" := rfl
  refine ⟨trivial, rfl, hmarked.trans ?_⟩
  exact congrArg (Except.map (· ++ "?")) hpresent

/-- The constant type of widgets that are present, where access must unwrap the constant. -/
def optionalConstant : TypeRef :=
  let widget := (TypeRef.ofForm 1 (.named ⟨"Widget", none, []⟩)).withExplicit .notNullable
  (TypeRef.ofForm 2 (.constant widget)).withExplicit .nullableNotUnwrapped

/-- The mark of the constant is not written. -/
theorem optionalConstant_loses_mark :
    optionalConstant.effective = .nullableNotUnwrapped ∧ ∃ s s',
      ((Language.swift true).typeDoc (.of .initial none false) optionalConstant).written
        .initial = .ok s ∧
      ((Language.swift true).typeDoc (.of .initial none false)
        (optionalConstant.view .notNullable)).written .initial = .ok s' ∧
      s ≠ s' ++ mark optionalConstant.effective :=
  ⟨rfl, "Widget", "Widget", rfl, rfl, by decide⟩

end Swift

end SourcePrinter
