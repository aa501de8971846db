import SourcePrinter.Language.Expressions.Swift

/-! Statements of Swift. -/

namespace SourcePrinter

namespace Swift

open Doc

/-- A document between braces: the first ends the current line, and the last ends none. -/
def braces (d : Doc) : Doc := line " \x7b" ++ nested d ++ text "\x7d"

/-- Statements between braces. -/
def openStatements (c : Context) (ss : List Statement) : Doc := braces (c.statements ss)

/-- The body of a statement between braces. -/
def openBody (c : Context) (s : Statement) : Doc := braces (c.body s)

/-- The word that introduces a value that changes or does not. -/
def bindingWord (constant : Bool) : String := if constant then "let" else "var"

/-- The type of a value after a colon, and the value after an equals sign. -/
def typeAndValue (c : Context) (t : Option TypeRef) (value : Option Expression) : Doc :=
  whenSome t (fun t => text ": " ++ c.typeRef t) ++
    whenSome value fun e => text " = " ++ c.expression e

/-- A local variable. -/
def declare (c : Context) (d : VariableDeclaration) : Doc :=
  text (bindingWord (d.constant || d.readOnly)) ++ text " " ++ c.identifier d.name ++
    typeAndValue c d.type d.value

/-- A conditional; one in the other branch continues it. -/
def conditionalStatement (c : Context) (condition : Expression) (thenBranch : Statement)
    (elseBranch : Option Statement) : Doc :=
  text "if " ++ c.expression condition ++ openBody c thenBranch ++
    whenSome elseBranch fun other =>
      if other.isConditional then text " else " ++ c.statement other
      else text " else" ++ openBody c other

/-- The step of a loop that counts backwards: its negation. -/
def backwardStep (c : Context) (step : Option Expression) : Doc :=
  match step with
  | some e =>
    if e.isLeaf then text "-" ++ c.expression e else text "-(" ++ c.expression e ++ text ")"
  | none => text "-1"

/-- The values that a counting loop takes: a closed range for steps of one, a stride otherwise. -/
def countedValues (c : Context) (l : CountingLoop) : Doc :=
  let stride (step : Doc) : Doc :=
    text "stride(from: " ++ c.expression l.start ++ text ", through: " ++ c.expression l.stop ++
      text ", by: " ++ step ++ text ")"
  match l.direction, l.step with
  | .forward, none => c.expression l.start ++ text "..." ++ c.expression l.stop
  | .forward, some step => stride (c.expression step)
  | .backward, step => stride (backwardStep c step)

/-- A counting loop. -/
def forTo (c : Context) (l : CountingLoop) : Doc :=
  text "for " ++ c.identifier l.counter ++ text " in " ++ countedValues c l ++ openBody c l.body

/-- A loop over a collection. -/
def forEach (c : Context) (l : CollectionLoop) : Doc :=
  text "for " ++ c.identifier l.element ++
    whenSome l.type (fun t => text ": " ++ c.typeRef t) ++ text " in " ++
    c.expression l.collection ++ openBody c l.body

/-- The statements of a case; one without statements breaks. -/
def caseBody (c : Context) (ss : List Statement) : Doc :=
  nested (c.statements ss ++ when ss.isEmpty (line "break"))

/-- A switch. -/
def switch (c : Context) (value : Expression) (cases : List SwitchCase)
    (default : Option (List Statement)) : Doc :=
  text "switch " ++ c.expression value ++ line " \x7b" ++
    concat (cases.map fun s =>
      text "case " ++ c.expressions s.labels ++ line ":" ++ caseBody c s.statements) ++
    whenSome default (fun ss => line "default:" ++ caseBody c ss) ++ text "\x7d"

/-- What a handler binds and handles. -/
def pattern (c : Context) (h : CatchBlock) : Doc :=
  match h.name, h.type with
  | some name, some t => text " let " ++ c.identifier name ++ text " as " ++ presentType c t
  | none, some t => text " is " ++ presentType c t
  | some name, none => text " let " ++ c.identifier name
  | none, none => .empty

/-- Statements with handlers. What runs at the end is deferred at the start. -/
def tryCatch (c : Context) (t : TryStatement) : Doc :=
  line "do \x7b" ++
    nested
      (whenSome t.cleanup (fun ss => text "defer" ++ openStatements c ss ++ newline) ++
        c.statements t.statements) ++
    text "\x7d" ++
    concat (t.catches.map fun h =>
      text " catch" ++ pattern c h ++ openStatements c h.statements)

/-- The rules for statements. Nothing locks and no resource is released by itself. -/
def statements : StatementRules where
  block c ss := text "do" ++ openStatements c ss
  expression c e := c.expression e
  declare := declare
  assignment c target value := c.expression target ++ text " = " ++ c.expression value
  conditional := conditionalStatement
  whileLoop c condition s := text "while " ++ c.expression condition ++ openBody c s
  doWhile c condition s :=
    text "repeat" ++ openBody c s ++ text " while " ++ c.expression condition
  forTo := forTo
  forEach := forEach
  switch := switch
  tryCatch := tryCatch
  throwing c value :=
    match value with
    | none => c.unsupported "throw statement" "rethrow without a value"
    | some e => text "throw " ++ c.expression e
  returning c value := text "return" ++ whenSome value fun e => text " " ++ c.expression e
  breakLoop _ := text "break"
  continueLoop _ := text "continue"
  locking := StatementRules.plain.locking
  resource := StatementRules.plain.resource
  empty := StatementRules.plain.empty

end Swift

end SourcePrinter
