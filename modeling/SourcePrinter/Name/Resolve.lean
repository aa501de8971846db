import SourcePrinter.Name.Dotted
import SourcePrinter.Name.Keyword

/-! How a name is spelled: namespaces may be left out, and each segment that collides with a
reserved word is escaped on its own. -/

namespace SourcePrinter

/-- Whether the segments of a name are checked against the reserved words. -/
inductive Spelling where
  | escaped
  | verbatim
  deriving DecidableEq, Repr

/-- Whether a name keeps its namespace when namespaces are left out. -/
inductive Qualification where
  | ordinary
  | always
  deriving DecidableEq, Repr

/-- What the spelling of names depends on. -/
structure Naming where
  keywords : KeywordSet
  /-- The spelling of a segment that collides. -/
  escape : List Char → List Char
  omitNamespaces : Bool

namespace Naming

/-- One segment, escaped if it collides with a reserved word. -/
def segment (n : Naming) (s : List Char) : List Char :=
  if n.keywords.contains (String.ofList s) then n.escape s else s

/-- A name with each colliding segment escaped. -/
def escapeDotted (n : Naming) (name : List Char) : List Char :=
  joinDots ((segments name).map n.segment)

/-- The spelling of a name: first the namespace is left out, then segments are escaped. -/
def resolve (n : Naming) (spelling : Spelling) (qualification : Qualification) (name : String) :
    String :=
  let kept :=
    if n.omitNamespaces ∧ qualification = .ordinary then lastSegment name.toList else name.toList
  match spelling with
  | .verbatim => String.ofList kept
  | .escaped => String.ofList (n.escapeDotted kept)

/-- A name of which no segment collides is spelled as it is. -/
theorem escapeDotted_of_no_collision (n : Naming) (name : List Char)
    (h : ∀ s ∈ segments name, n.keywords.contains (String.ofList s) = false) :
    n.escapeDotted name = name := by
  have : (segments name).map n.segment = (segments name).map id :=
    List.map_congr_left fun s hs => by simp [segment, h s hs]
  rw [escapeDotted, this, List.map_id, joinDots_segments]

end Naming

end SourcePrinter
