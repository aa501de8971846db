import SourcePrinter.Proofs.Descent
import SourcePrinter.Number.Shortest

/-! The rules of a plain language follow outlines: nearly all of them are gaps. -/

namespace SourcePrinter

open Doc

/-! ### Faults of every language -/

/-- What is wrong with an expression in any language: an integer in none of the four bases, a
dictionary without as many values as keys, a number that is not finite. -/
def Expression.fault? (e : Expression) : Option String :=
  match e.form with
  | .integer _ base =>
    if base = 2 ∨ base = 8 ∨ base = 10 ∨ base = 16 then none
    else some ("integer literal in unsupported base " ++ toString base)
  | .dictionary literal =>
    if literal.keys.length = literal.values.length then none
    else some ("dictionary literal has " ++ toString literal.keys.length ++ " keys but " ++
      toString literal.values.length ++ " values")
  | .float value =>
    if value.isFinite then none else some ("non-finite float literal " ++ value.decimal)
  | _ => none

/-- What is wrong with a node in any language. -/
def Node.fault? : Node → Option String
  | .expression e => e.fault?
  | _ => none

/-- The faults that a table of faults gives. -/
def Faults.of (table : Node → Option String) : Faults := fun n detail => table n = some detail

/-! ### The plain rules -/

namespace Language

variable {hooks : Hooks} {faults : Faults} {c : Context} {n : Node} {scope : Option TypeScope}

theorem plain_expression (h : c.Obeys (plain hooks) (.of Node.fault?)) (e : Expression) :
    Follows hooks (.of Node.fault?) (.expression e)
      (((plain hooks).expressionRule c e).events scope) e.form.outline := by
  obtain ⟨id, form⟩ := e
  cases form with
  | identifier | localVariable | raw => exact .nothing
  | integer value base =>
    show Follows hooks _ _ (Doc.events (if _ then _ else _) scope) _
    split
    · exact h.unsupported (by decide)
    · next hb => exact .fault (if_neg hb)
  | dictionary literal =>
    show Follows hooks _ _ (Doc.events (if _ then _ else _) scope) _
    split
    · exact h.unsupported (by decide)
    · next hl => exact .fault (if_neg hl)
  | enumValue type value => exact .before_text rfl (.before_text rfl (h.typeRef type scope))
  | typeReference type => exact h.typeRef type scope
  | parentheses inner => exact .before_text rfl (.after_text rfl (h.expression inner))
  | nil | boolean | float | string | character | array | tuple | selfReference | inherited | result
  | field | property | call | newInstance | element | typeOf | sizeOf | defaultOf | typeCheck
  | typeCast | binary | unary | conditional | await | addressOf | dereference | range
  | anonymousMethod => exact h.unsupported (by decide)

theorem plain_statement (h : c.Obeys (plain hooks) (.of Node.fault?)) (s : Statement) :
    Follows hooks (.of Node.fault?) n (((plain hooks).statementRule c s).events scope)
      s.form.outline := by
  obtain ⟨id, form⟩ := s
  cases form with
  | empty | raw => exact .nothing
  | comment comment => exact h.comment comment
  | block statements => exact h.statements statements
  | infiniteLoop body =>
    exact .detached (m := .expression endless) nofun (h.unsupported (by decide))
  | expression | declare | assignment | conditional | whileLoop | doWhile | forTo | forEach | switch
  | tryCatch | throwing | returning | breakLoop | continueLoop | locking | «using» =>
    exact h.unsupported (by decide)

theorem plain_member (h : c.Obeys (plain hooks) faults) (m : Member) :
    Follows hooks faults n (((plain hooks).memberRule c m).events scope) m.form.outline := by
  obtain ⟨id, name, info, virtuality, isStatic, form⟩ := m
  cases form with
  | nestedType nested => exact h.typeDefinition nested scope
  | constructor | destructor | finalizer | method | field | property | event | customOperator =>
    exact h.unsupported (by decide)

/-- A plain language obeys, if its hooks only write text. -/
theorem plain_obeys (h : hooks.Textual) : (plain hooks).Obeys (.of Node.fault?) where
  textual := h
  docComment comment := Doc.textual_concat h.lineComment comment.lines
  conditionStart e scope hc := hc.unsupported (by decide)
  conditionEnd _ := trivial
  attributeLine a scope hc := hc.unsupported (by decide)
  enclose _ _ _ _ := rfl
  globals gs scope hc := .concat (fun g => hc.member g.member scope) gs
  expression e scope hc := plain_expression hc e
  typeRef t scope hc := by
    show Follows hooks _ _ (((plain hooks).typeRule _ t).events scope) _
    unfold typeRule
    split <;> exact hc.unsupported (by decide)
  parameter p scope hc := hc.unsupported (by decide)
  statement s scope hc := plain_statement hc s
  member m scope hc := plain_member hc m
  definition t scope hc := by
    show Follows hooks _ _ (((plain hooks).definitionRule _ t).events scope) _
    unfold definitionRule
    split <;> exact hc.unsupported (by decide)

end Language

end SourcePrinter
