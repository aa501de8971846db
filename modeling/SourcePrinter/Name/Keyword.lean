import SourcePrinter.Text.Lowercase

/-! The reserved words of a language, compared with or without regard to case. -/

namespace SourcePrinter

/-- A set of reserved words. Words of a set that ignores case are kept in lower case. -/
structure KeywordSet where
  words : List String
  caseSensitive : Bool
  deriving DecidableEq, Repr

namespace KeywordSet

/-- Words that collide only when spelled alike. -/
def sensitive (words : List String) : KeywordSet := ⟨words.eraseDups, true⟩

/-- Words that collide in any spelling with the same lower case. -/
def insensitive (words : List String) : KeywordSet := ⟨(words.map toLowercase).eraseDups, false⟩

/-- The number of words. -/
def size (k : KeywordSet) : Nat := k.words.length

/-- The form of a text in which it is compared. -/
def key (k : KeywordSet) (text : String) : String :=
  if k.caseSensitive then text else toLowercase text

/-- The text collides with a reserved word. -/
def contains (k : KeywordSet) (text : String) : Bool := k.words.contains (k.key text)

theorem contains_sensitive (words : List String) (text : String) :
    (sensitive words).contains text = words.contains text := by
  simp [sensitive, contains, key, List.contains_eq_mem, List.mem_eraseDups]

end KeywordSet

end SourcePrinter
