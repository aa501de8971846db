import SourcePrinter.Proofs.Closing.CSharp
import SourcePrinter.Proofs.Closing.Swift

/-! At every depth the contexts of C# and Swift are closed. -/

namespace SourcePrinter

open Doc

namespace Dialect

variable (d : Dialect) {m : Reading} {c : Context}

/-! ### Rules -/

section

variable (h : c.Closes m)

include h

theorem expressionRule_closed {e : Expression} (ho : e.outline.Overlooked m) :
    (d.language.expressionRule c e).Closed m := by
  cases d with
  | csharp => exact CSharp.expressionRule_closed h ho
  | swift => exact Swift.expressionRule_closed h ho

theorem typeRule_closed {t : TypeRef} (ho : t.form.outline.Overlooked m)
    (ht : ∀ s ∈ t.form.texts, m.Overlooks s) : (d.language.typeRule c t).Closed m := by
  cases d with
  | csharp => exact CSharp.typeRule_closed h ho ht
  | swift => exact Swift.typeRule_closed h ho ht

theorem statementRule_closed {s : Statement} (ho : s.outline.Overlooked m) :
    (d.language.statementRule c s).Closed m := by
  cases d with
  | csharp => exact CSharp.statementRule_closed h ho
  | swift => exact Swift.statementRule_closed h ho

theorem parameter_closed {p : Parameter} (ho : p.outline.Overlooked m) :
    (d.language.members.parameter c p).Closed m := by
  cases d with
  | csharp => exact CSharp.parameter_closed h ho
  | swift => exact Swift.parameter_closed h ho

/-- What a language writes for a part that is no declaration is closed. -/
theorem write_closed {p : Part} (hp : p.IsCode) (ho : p.outline.Overlooked m) :
    (d.language.write c p).Closed m := by
  have hstatement : ∀ {s : Statement}, s.outline.Overlooked m →
      (d.language.statementNode c s).Closed m := fun ho =>
    .append (a := node _ _) (d.statementRule_closed h ho) fun _ _ => rfl
  cases p with
  | expression e => exact d.expressionRule_closed h ho
  | typeRef t =>
    rw [Part.outline, TypeRef.outline_eq, Outline.overlooked_node, Outline.overlooked_beside] at ho
    exact d.typeRule_closed h ho.2.1 ho.1
  | typeRefAs n t =>
    rw [Part.outline, TypeRef.outline_eq, Outline.overlooked_node, Outline.overlooked_beside] at ho
    obtain ⟨ht, hform, -⟩ := ho
    have hview := TypeRef.form_view t n
    refine d.typeRule_closed h (t := t.view n) ?_ ?_
    · rw [hview]
      exact hform
    · rw [hview]
      exact ht
  | parameter p => exact d.parameter_closed h ho
  | statement s => exact hstatement ho
  | body s =>
    obtain ⟨id, form⟩ := s
    cases form with
    | block ss =>
      rw [Part.outline, Statement.outline_eq, Outline.overlooked_node] at ho
      exact h.statements (overlooked_statements.1 ho.2)
    | _ => exact hstatement ho
  | member | definition => exact hp.elim

end

/-! ### Contexts -/

theorem naming_context (setting : Setting) (depth : Nat) :
    (d.language.context setting depth).naming =
      ⟨d.language.hooks.keywords, d.language.hooks.escape, setting.omitNamespaces⟩ := by
  induction depth with
  | zero => rfl
  | succ depth ih => exact ih

theorem language_context (setting : Setting) (depth : Nat) :
    (d.language.context setting depth).language = "C#" ∨
      (d.language.context setting depth).language = "Swift" := by
  rw [(d.language.context_speaks setting depth).language]
  cases d with
  | csharp => exact .inl rfl
  | swift => exact .inr rfl

/-- Escapes add the mark of C# or that of Swift. -/
theorem escape_cases (s : List Char) :
    ∀ c ∈ d.language.hooks.escape s, c ∈ s ∨ c = '@' ∨ c = Swift.nameQuote := by
  intro c hc
  cases d with
  | csharp =>
    rcases List.mem_cons.1 hc with rfl | hc
    · exact .inr (.inl rfl)
    · exact .inl hc
  | swift =>
    have hc : c ∈ Swift.nameQuote :: (s ++ [Swift.nameQuote]) := hc
    simp only [List.mem_cons, List.mem_append, List.not_mem_nil, or_false] at hc
    rcases hc with rfl | hc | rfl
    · exact .inr (.inr rfl)
    · exact .inl hc
    · exact .inr (.inr rfl)

/-- The words of a context are closed at every depth, so the parts decide. -/
theorem closes_of_parts {setting : Setting} {depth : Nat}
    (hpart : ∀ p : Part, p.IsCode → p.outline.Overlooked m →
      (p.doc (d.language.context setting depth)).Closed m) :
    (d.language.context setting depth).Closes m where
  language := d.language_context setting depth
  remark := (d.language.context_speaks setting depth).remark.trans d.braces.inlineComment
  lineComment := by
    rw [(d.language.context_speaks setting depth).lineComment]
    cases d <;> rfl
  docComment comment := by
    rw [(d.language.context_speaks setting depth).docComment]
    cases d <;> rfl
  resolve hn := by
    rw [naming_context]
    refine Naming.overlooks_resolve (fun s c hc => ?_) hn _ _
    refine (d.escape_cases s c hc).imp_right ?_
    rintro (rfl | rfl) <;> rfl
  part := hpart

/-- No depth is too small: what a context does not reach it leaves out. -/
theorem context_closes (m : Reading) (setting : Setting) (depth : Nat) :
    (d.language.context setting depth).Closes m := by
  induction depth with
  | zero =>
    refine d.closes_of_parts fun p hp ho => ?_
    cases p <;> exact fun _ _ => rfl
  | succ depth ih =>
    refine d.closes_of_parts fun p hp ho => ?_
    rw [d.language.doc_context_succ]
    exact d.write_closed ih hp ho

end Dialect

end SourcePrinter
