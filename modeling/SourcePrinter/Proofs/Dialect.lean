import SourcePrinter.Proofs.Rules.CSharp
import SourcePrinter.Proofs.Rules.Swift

/-! The languages whose rules follow outlines: C#, Swift, and the plain ones. -/

namespace SourcePrinter

/-- C# or Swift. -/
inductive Dialect where
  | csharp
  /-- With the values of enumerations in lower case, or not. -/
  | swift (lowercaseCases : Bool)
  deriving DecidableEq, Repr

namespace Dialect

/-- The language of a dialect. -/
def language : Dialect → Language
  | csharp => .csharp
  | swift lowercaseCases => .swift lowercaseCases

/-- What is wrong with a node in a dialect, as the message says it. -/
def fault? : Dialect → Node → Option String
  | csharp => CSharp.fault?
  | swift _ => Node.fault?

theorem composes (d : Dialect) : d.language.Composes (.of d.fault?) :=
  match d with
  | csharp => Language.csharp_composes
  | swift lowercaseCases => Language.swift_composes lowercaseCases

theorem obeys (d : Dialect) : d.language.Obeys (.of d.fault?) := d.composes.obeys

end Dialect

/-- A language that is a dialect, or has the plain rules over hooks that only write text. -/
inductive Language.Known : Language → Prop where
  | dialect (d : Dialect) : Known d.language
  | plain {hooks : Hooks} (h : hooks.Textual) : Known (.plain hooks)

theorem Language.Known.obeys {l : Language} (h : l.Known) : ∃ faults, l.Obeys faults := by
  cases h with
  | dialect d => exact ⟨_, d.obeys⟩
  | plain h => exact ⟨_, plain_obeys h⟩

end SourcePrinter
