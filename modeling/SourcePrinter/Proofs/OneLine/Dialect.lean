import SourcePrinter.Proofs.Closing.Dialect
import SourcePrinter.Proofs.OneLine.CSharp
import SourcePrinter.Proofs.OneLine.Swift

/-! At every depth the contexts of C# and Swift write expressions and types in one line. -/

namespace SourcePrinter

namespace Dialect

variable (d : Dialect) {c : Context}

theorem expressionRule_inLine (h : c.InLine) {e : Expression} (ho : e.outline.InLine) :
    (d.language.expressionRule c e).InLine := by
  cases d with
  | csharp => exact CSharp.expressionRule_inLine h ho
  | swift => exact Swift.expressionRule_inLine h ho

/-- A type reference may be written with another nullability. -/
theorem typeNode_inLine (h : c.InLine) {t inForce : TypeRef} (ht : inForce.form = t.form)
    (ho : t.outline.InLine) : (d.language.typeNode c t inForce).InLine := by
  rw [TypeRef.outline_eq, Outline.InLine, Outline.all_node, Outline.all_beside] at ho
  obtain ⟨htexts, hform, -⟩ := ho
  have htexts : ∀ s ∈ inForce.form.texts, '\n' ∉ s.toList := ht ▸ htexts
  cases d with
  | csharp => exact CSharp.typeRule_inLine h (ht ▸ hform) htexts
  | swift => exact Swift.typeRule_inLine h (ht ▸ hform) htexts

/-- A name in one line is resolved to one in one line. -/
theorem lineFeed_not_mem_resolve (setting : Setting) (depth : Nat) {name : String}
    (hn : '\n' ∉ name.toList) (spelling : Spelling) (qualification : Qualification) : '\n' ∉
      ((d.language.context setting depth).naming.resolve spelling qualification name).toList := by
  have hescape : ∀ s c, c ∈ d.language.hooks.escape s → c ∈ s ∨ c ≠ '\n' := by
    intro s c hc
    refine (d.escape_cases s c hc).imp_right ?_
    rintro (rfl | rfl) <;> decide
  have hchars : ∀ c ∈ name.toList, c ≠ '\n' := fun c hc he => hn (he ▸ hc)
  rw [naming_context]
  exact fun hc => Naming.forall_resolve (by decide) hescape hchars _ _ '\n' hc rfl

/-- No depth is too small: what a context does not reach it leaves out. -/
theorem context_inLine (setting : Setting) (depth : Nat) :
    (d.language.context setting depth).InLine := by
  have hremark : ∀ depth, (d.language.context setting depth).remark = Brace.inlineComment :=
    fun depth => (d.language.context_speaks setting depth).remark.trans d.braces.inlineComment
  induction depth with
  | zero =>
    exact
      { language := d.language_context setting 0, remark := hremark 0,
        resolve := d.lineFeed_not_mem_resolve setting 0, expression := fun _ => trivial,
        typeRef := fun _ => trivial, typeRefAs := fun _ _ => trivial }
  | succ depth ih =>
    exact
      { language := d.language_context setting (depth + 1), remark := hremark (depth + 1),
        resolve := d.lineFeed_not_mem_resolve setting (depth + 1),
        expression := d.expressionRule_inLine ih,
        typeRef := d.typeNode_inLine ih rfl,
        typeRefAs := fun ho n => d.typeNode_inLine ih (TypeRef.form_view _ n) ho }

/-- The document of an expression in one line is in one line. -/
theorem expressionDoc_inLine (setting : Setting) {e : Expression} (ho : e.outline.InLine) :
    (d.language.expressionDoc setting e).InLine :=
  (d.context_inLine setting e.size).expression ho

end Dialect

end SourcePrinter
