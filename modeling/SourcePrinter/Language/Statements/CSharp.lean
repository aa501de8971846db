import SourcePrinter.Language.Brace
import SourcePrinter.Language.Rules

/-! Statements of C#. -/

namespace SourcePrinter

namespace CSharp

open Doc

/-- A type, or the word for an inferred one. -/
def typeOrVar (c : Context) (t : Option TypeRef) : Doc :=
  match t with
  | some t => c.typeRef t
  | none => text "var"

/-- A local variable. Without type and value it can hold any object. -/
def declare (c : Context) (d : VariableDeclaration) : Doc :=
  when d.constant (text "const ") ++
    (match d.type with
      | some t => c.typeRef t
      | none => text (if d.value.isSome then "var" else "object")) ++
    text " " ++ c.identifier d.name ++
    whenSome d.value (fun e => text " = " ++ c.expression e) ++ line ";"

/-- A counting loop. -/
def forTo (c : Context) (l : CountingLoop) : Doc :=
  let forward := l.direction == .forward
  text "for (" ++ typeOrVar c l.type ++ text " " ++ c.identifier l.counter ++ text " = " ++
    c.expression l.start ++ text "; " ++ c.identifier l.counter ++
    text (if forward then " <= " else " >= ") ++ c.expression l.stop ++ text "; " ++
    c.identifier l.counter ++
    (match l.step with
      | some step => text (if forward then " += " else " -= ") ++ c.expression step
      | none => text (if forward then "++" else "--")) ++
    line ")" ++ Brace.body c l.body

/-- A loop over a collection. -/
def forEach (c : Context) (l : CollectionLoop) : Doc :=
  text "foreach (" ++ typeOrVar c l.type ++ text " " ++ c.identifier l.element ++ text " in " ++
    c.expression l.collection ++ line ")" ++ Brace.body c l.body

/-- Control does not reach the end of the statements. -/
def endsInJump (statements : List Statement) : Bool :=
  statements.getLast?.any Statement.isJump

/-- The statements of a case, ended by a break where control could reach the next case. -/
def caseBody (c : Context) (statements : List Statement) : Doc :=
  nested (c.statements statements ++ when (!endsInJump statements) (line "break;"))

/-- A case of a switch, with its labels on lines of their own. -/
def switchCase (c : Context) (s : SwitchCase) : Doc :=
  concat (s.labels.map fun label => text "case " ++ c.expression label ++ line ":") ++
    caseBody c s.statements

/-- A switch. -/
def switch (c : Context) (value : Expression) (cases : List SwitchCase)
    (default : Option (List Statement)) : Doc :=
  text "switch (" ++ c.expression value ++ line ")" ++
    Brace.braced
      (concat (cases.map (switchCase c)) ++
        whenSome default fun statements => line "default:" ++ caseBody c statements)

/-- A handler; without a type it handles everything and binds no name. -/
def handler (c : Context) (h : CatchBlock) : Doc :=
  text "catch" ++
    whenSome h.type (fun t =>
      text " (" ++ c.typeRef t ++
        whenSome h.name (fun name => text " " ++ c.identifier name) ++ text ")") ++
    newline ++ Brace.block c h.statements

/-- Statements with handlers. -/
def tryCatch (c : Context) (t : TryStatement) : Doc :=
  line "try" ++ Brace.block c t.statements ++ concat (t.catches.map (handler c)) ++
    whenSome t.cleanup fun statements => line "finally" ++ Brace.block c statements

/-- The rules for statements. -/
def statements : StatementRules where
  block := Brace.block
  expression := Brace.expressionStatement
  declare := declare
  assignment := Brace.assignment
  conditional := Brace.conditionalStatement
  whileLoop := Brace.whileLoop
  doWhile := Brace.doWhile
  forTo := forTo
  forEach := forEach
  switch := switch
  tryCatch := tryCatch
  throwing c value := Brace.keywordStatement c "throw" value
  returning c value := Brace.keywordStatement c "return" value
  breakLoop c := Brace.keywordStatement c "break" none
  continueLoop c := Brace.keywordStatement c "continue" none
  locking c value s := text "lock (" ++ c.expression value ++ line ")" ++ Brace.body c s
  resource c u :=
    text "using (" ++ typeOrVar c u.type ++ text " " ++ c.identifier u.name ++ text " = " ++
      c.expression u.value ++ line ")" ++ Brace.body c u.body
  empty _ := line ";"

end CSharp

end SourcePrinter
