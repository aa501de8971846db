/-! Positions in a text and the spans between two of them. A position counts lines, characters of
the line, columns of the line with tabs widened, and bytes; positions are ordered by these four
counts in turn, and `Position.scan` is the position at which a text ends. -/

namespace SourcePrinter

/-- A place between two characters of a text, every count starting at zero. The counts are of any
size; a machine takes each step of them in a word. -/
structure Position where
  /-- Line feeds before the place. -/
  line : Nat
  /-- Characters of the line before the place. -/
  column : Nat
  /-- The same characters, each tab counted as its width. -/
  virtualColumn : Nat
  /-- Bytes of the text before the place. -/
  offset : Nat
  deriving DecidableEq, Repr

namespace Position

/-- The place before the first character. -/
def origin : Position := ⟨0, 0, 0, 0⟩

instance : Inhabited Position := ⟨origin⟩

/-- Positions are compared by line, then column, then virtual column, then offset. -/
def compare (a b : Position) : Ordering :=
  (Ord.compare a.line b.line).then <|
    (Ord.compare a.column b.column).then <|
      (Ord.compare a.virtualColumn b.virtualColumn).then (Ord.compare a.offset b.offset)

instance : LE Position where
  le a b :=
    a.line < b.line ∨ a.line = b.line ∧
      (a.column < b.column ∨ a.column = b.column ∧
        (a.virtualColumn < b.virtualColumn ∨ a.virtualColumn = b.virtualColumn ∧
          a.offset ≤ b.offset))

instance (a b : Position) : Decidable (a ≤ b) :=
  inferInstanceAs (Decidable (_ ∨ _ ∧ (_ ∨ _ ∧ (_ ∨ _ ∧ _))))

theorem le_def {a b : Position} : a ≤ b ↔
    a.line < b.line ∨ a.line = b.line ∧
      (a.column < b.column ∨ a.column = b.column ∧
        (a.virtualColumn < b.virtualColumn ∨ a.virtualColumn = b.virtualColumn ∧
          a.offset ≤ b.offset)) := Iff.rfl

theorem le_refl (a : Position) : a ≤ a := by simp [le_def]

theorem le_trans {a b c : Position} (h : a ≤ b) (h' : b ≤ c) : a ≤ c := by
  rw [le_def] at *; omega

theorem le_total (a b : Position) : a ≤ b ∨ b ≤ a := by
  simp only [le_def]; omega

theorem le_antisymm {a b : Position} (h : a ≤ b) (h' : b ≤ a) : a = b := by
  cases a; cases b; simp only [le_def] at h h'; simp only [mk.injEq]; omega

/-- The earlier of two positions. -/
def min (a b : Position) : Position := if a ≤ b then a else b

/-- The later of two positions. -/
def max (a b : Position) : Position := if a ≤ b then b else a

theorem min_le_left (a b : Position) : min a b ≤ a := by
  unfold min; split
  · exact le_refl a
  · exact (le_total a b).resolve_left ‹_›

theorem min_le_right (a b : Position) : min a b ≤ b := by
  unfold min; split
  · assumption
  · exact le_refl b

theorem le_max_left (a b : Position) : a ≤ max a b := by
  unfold max; split
  · assumption
  · exact le_refl a

theorem le_max_right (a b : Position) : b ≤ max a b := by
  unfold max; split
  · exact le_refl b
  · exact (le_total a b).resolve_left ‹_›

/-- The position after one more character; a tab is `tabWidth` columns wide. -/
def step (tabWidth : Nat) (p : Position) (c : Char) : Position :=
  if c = '\n' then ⟨p.line + 1, 0, 0, p.offset + 1⟩
  else ⟨p.line, p.column + 1, p.virtualColumn + (if c = '\t' then tabWidth else 1),
    p.offset + c.utf8Size⟩

/-- The position at the end of a text that starts at `p`. -/
def scan (tabWidth : Nat) (p : Position) (text : List Char) : Position :=
  text.foldl (step tabWidth) p

@[simp] theorem scan_nil (tabWidth : Nat) (p : Position) : scan tabWidth p [] = p := rfl

@[simp] theorem scan_append (tabWidth : Nat) (p : Position) (s t : List Char) :
    scan tabWidth p (s ++ t) = scan tabWidth (scan tabWidth p s) t := by
  simp [scan]

/-- Line and column, parted by a colon. -/
def display (p : Position) : String := toString p.line ++ ":" ++ toString p.column

end Position

/-- The stretch of text from one position to another. -/
structure Span where
  start : Position
  stop : Position
  deriving DecidableEq, Repr

namespace Span

/-- `inner` starts no earlier and ends no later. -/
def contains (outer inner : Span) : Bool :=
  decide (outer.start ≤ inner.start ∧ inner.stop ≤ outer.stop)

/-- The number of lines that a span touches, for one that does not end before it starts. -/
def lineCount? (s : Span) : Option Nat :=
  if s.start.line ≤ s.stop.line then some (s.stop.line - s.start.line + 1) else none

/-- Both ends, parted by a dash. -/
def display (s : Span) : String := s.start.display ++ "-" ++ s.stop.display

end Span

end SourcePrinter
