/-! The lines of a comment's text. -/

namespace SourcePrinter

/-- The lines of a text. Each ends at a line feed, and a carriage return just before that line feed
belongs to the end; what follows the last line feed is a line unless it is empty. -/
def linesFrom (line : List Char) : List Char → List (List Char)
  | [] => if line.isEmpty then [] else [line.reverse]
  | '\n' :: rest =>
    (if line.head? = some '\r' then line.tail else line).reverse :: linesFrom [] rest
  | c :: rest => linesFrom (c :: line) rest

/-- The lines of a text. -/
def textLines (text : String) : List String :=
  (linesFrom [] text.toList).map String.ofList

/-- A comment: its lines. -/
structure Comment where
  lines : List String
  deriving DecidableEq, Repr

/-- The comment with the lines of a text. -/
def Comment.ofText (text : String) : Comment := ⟨textLines text⟩

end SourcePrinter
