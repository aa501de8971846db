import SourcePrinter.Proofs.Literals
import SourcePrinter.Proofs.OneLine.CSharp
import SourcePrinter.Proofs.OneLine.Swift
import SourcePrinter.Proofs.Quotes

/-! Integers read back. A reader takes a sign, the mark of a base and digits of that base, and says
which number it has read and in which base. It gets back every integer that C# or Swift writes, and
what they do not write they refuse before anything is written. -/

namespace SourcePrinter

namespace Brace

/-! ### The reader -/

/-- The number that one digit more makes of a number. -/
def readDigit (base value : Nat) (c : Char) : Option Nat :=
  (Quoted.hexValue c).bind fun digit => if digit < base then some (value * base + digit) else none

/-- The number that digits stand for; there is at least one. -/
def readDigits (base : Nat) (text : List Char) : Option Nat :=
  if text = [] then none else text.foldlM (readDigit base) 0

/-- The number and the base of a literal without a sign. -/
def readMagnitude : List Char → Option (Nat × Nat)
  | '0' :: 'b' :: text => (readDigits 2 text).map (·, 2)
  | '0' :: 'o' :: text => (readDigits 8 text).map (·, 8)
  | '0' :: 'x' :: text => (readDigits 16 text).map (·, 16)
  | text => (readDigits 10 text).map (·, 10)

/-- The value and the base of a literal. -/
def readInteger : List Char → Option (Int × Nat)
  | '-' :: text => (readMagnitude text).map fun (magnitude, base) => (-magnitude, base)
  | text => (readMagnitude text).map fun (magnitude, base) => (magnitude, base)

/-! ### Digits -/

theorem readDigit_upperDigit {base d : Nat} (hbase : base ≤ 16) (hd : d < base) (value : Nat) :
    readDigit base value (upperDigit d) = some (value * base + d) := by
  rw [readDigit, Quoted.hexValue_upperDigit d (by omega), Option.bind_some, if_pos hd]

/-- Digits add up. -/
theorem foldlM_readDigit {base : Nat} (hbase : base ≤ 16) {ds : List Nat}
    (hds : ∀ d ∈ ds, d < base) (value : Nat) :
    (ds.map upperDigit).foldlM (readDigit base) value =
      some (ds.foldl (fun v d => v * base + d) value) := by
  induction ds generalizing value with
  | nil => rfl
  | cons d ds ih =>
    have hd : d < base := hds d List.mem_cons_self
    have hrest : ∀ e ∈ ds, e < base := fun e he => hds e (List.mem_cons_of_mem _ he)
    rw [List.map_cons, List.foldlM_cons, readDigit_upperDigit hbase hd, List.foldl_cons]
    exact ih hrest _

/-- The digits of a number are read as the number. -/
theorem readDigits_digits {base : Nat} (hbase : 2 ≤ base ∧ base ≤ 16) (n : Nat) :
    readDigits base ((digits base n).map upperDigit) = some n := by
  have hne : (digits base n).map upperDigit ≠ [] :=
    fun h => Quoted.digits_ne_nil hbase.1 n (List.map_eq_nil_iff.1 h)
  have hlt : ∀ d ∈ digits base n, d < base := digits_lt (by omega) n
  rw [readDigits, if_neg hne, foldlM_readDigit hbase.2 hlt]
  exact congrArg some (ofDigits_digits hbase.1 n)

/-- Decimal digits are neither a letter nor a sign. -/
theorem upperDigit_ne_mark : ∀ d < 10,
    upperDigit d ≠ 'b' ∧ upperDigit d ≠ 'o' ∧ upperDigit d ≠ 'x' ∧ upperDigit d ≠ '-' := by
  decide

theorem ne_mark_of_mem_digits {n : Nat} {c : Char} (hc : c ∈ (digits 10 n).map upperDigit) :
    c ≠ 'b' ∧ c ≠ 'o' ∧ c ≠ 'x' ∧ c ≠ '-' := by
  obtain ⟨d, hd, rfl⟩ := List.mem_map.1 hc
  exact upperDigit_ne_mark d (digits_lt (by decide) n d hd)

/-- Decimal digits are read without a mark. -/
theorem readMagnitude_decimal (n : Nat) :
    readMagnitude ((digits 10 n).map upperDigit) = some (n, 10) := by
  have hmark := @ne_mark_of_mem_digits n
  have hread := readDigits_digits (show 2 ≤ 10 ∧ 10 ≤ 16 by decide) n
  generalize (digits 10 n).map upperDigit = text at hmark hread
  -- The other cases have a letter for the second character.
  unfold readMagnitude
  split
  · exact absurd rfl (hmark (c := 'b') (by simp)).1
  · exact absurd rfl (hmark (c := 'o') (by simp)).2.1
  · exact absurd rfl (hmark (c := 'x') (by simp)).2.2.1
  · rw [hread]
    rfl

/-! ### Literals -/

/-- What stands after the sign is read as the magnitude, and does not start with a sign. -/
structure ReadsBack (text : List Char) (magnitude base : Nat) : Prop where
  magnitude : readMagnitude text = some (magnitude, base)
  unsigned : text.head? ≠ some '-'

theorem ReadsBack.decimal (n : Nat) : ReadsBack ((digits 10 n).map upperDigit) n 10 where
  magnitude := readMagnitude_decimal n
  unsigned h := (ne_mark_of_mem_digits (List.mem_of_mem_head? h)).2.2.2 rfl

/-- A sign may stand before a magnitude. -/
theorem ReadsBack.readInteger {text : List Char} {value : Int} {base : Nat}
    (h : ReadsBack text value.natAbs base) :
    readInteger ((if value < 0 then "-" else "").toList ++ text) = some (value, base) := by
  split
  · next hneg =>
    have hvalue : -(value.natAbs : Int) = value := by omega
    show (readMagnitude text).map _ = _
    rw [h.magnitude]
    exact congrArg (fun v => some (v, base)) hvalue
  · next hpos =>
    have hvalue : (value.natAbs : Int) = value := by omega
    show Brace.readInteger text = _
    unfold Brace.readInteger
    split
    · exact absurd rfl h.unsigned
    · rw [h.magnitude]
      exact congrArg (fun v => some (v, base)) hvalue

end Brace

/-! ### Integers of C# and Swift -/

namespace Dialect

/-- The bases that integers may be written in. -/
def bases : Dialect → List Nat
  | csharp => [2, 10, 16]
  | swift _ => [2, 8, 10, 16]

/-- The mark of a base. -/
def baseMark : Dialect → Nat → Option String
  | csharp => CSharp.baseMark
  | swift _ => Swift.baseMark

variable (d : Dialect)

/-- The rule for integers looks for the mark of the base. -/
theorem integer_eq (c : Context) (value : Int) (base : Nat) :
    d.language.expressions.integer c value base =
      Brace.integerLiteral c d.baseMark value base := by
  cases d <;> rfl

theorem baseMark_eq_none {base : Nat} (h : base ∉ d.bases) : d.baseMark base = none := by
  cases d <;> simp_all [bases, baseMark, CSharp.baseMark, Swift.baseMark]

/-- Every base has a mark, after which the digits read back. -/
theorem baseMark_reads {base : Nat} (h : base ∈ d.bases) : ∃ mark, d.baseMark base = some mark ∧
    ∀ n, Brace.ReadsBack (mark.toList ++ Brace.magnitudeDigits base n) n base := by
  have hreads : ∀ b : Nat, (2 ≤ b ∧ b ≤ 16) → ∀ n,
      (Brace.readDigits b ((digits b n).map upperDigit)).map (·, b) = some (n, b) := by
    intro b hb n
    rw [Brace.readDigits_digits hb n, Option.map_some]
  have hbase : base = 2 ∨ base = 8 ∧ d ≠ csharp ∨ base = 10 ∨ base = 16 := by
    cases d <;> simpa [bases] using h
  rcases hbase with rfl | ⟨rfl, hd⟩ | rfl | rfl
  · exact ⟨"0b", by cases d <;> rfl, fun n => ⟨hreads 2 (by decide) n, nofun⟩⟩
  · exact ⟨"0o", by cases d <;> first | rfl | exact absurd rfl hd,
      fun n => ⟨hreads 8 (by decide) n, nofun⟩⟩
  · exact ⟨"", by cases d <;> rfl, fun n => .decimal n⟩
  · exact ⟨"0x", by cases d <;> rfl, fun n => ⟨hreads 16 (by decide) n, nofun⟩⟩

theorem lineFeed_not_mem_baseMark (base : Nat) :
    ∀ mark ∈ d.baseMark base, '\n' ∉ mark.toList := by
  cases d with
  | csharp => exact CSharp.lineFeed_not_mem_baseMark base
  | swift => exact Swift.lineFeed_not_mem_baseMark base

/-- The document of an integer: in a base of the language a text of one line that reads back, in
any other a fault. -/
def Spells (value : Int) (base : Nat) (doc : Doc) : Prop :=
  base ∈ d.bases ∧ (∃ text : String, doc = .text text ∧ '\n' ∉ text.toList ∧
    Brace.readInteger text.toList = some (value, base)) ∨
  base ∉ d.bases ∧ ∃ detail, doc = .malformed detail

theorem integer_spells (c : Context) (value : Int) (base : Nat) :
    d.Spells value base (d.language.expressions.integer c value base) := by
  have hline := Brace.integerLiteral_inLine (c := c) d.lineFeed_not_mem_baseMark value base
  rw [d.integer_eq]
  rw [Brace.integerLiteral] at hline ⊢
  by_cases hbase : base ∈ d.bases
  · obtain ⟨mark, hmark, hreads⟩ := d.baseMark_reads hbase
    rw [hmark] at hline ⊢
    refine .inl ⟨hbase, _, rfl, hline, ?_⟩
    rw [Brace.integerText, String.toList_append, String.toList_append, String.toList_ofList,
      List.append_assoc]
    exact (hreads value.natAbs).readInteger
  · rw [d.baseMark_eq_none hbase]
    exact .inr ⟨hbase, _, rfl⟩

/-- No base of a language is refused before its rule is asked. -/
theorem expressionRule_spells (c : Context) (id : NodeId) (value : Int) (base : Nat) :
    d.Spells value base (d.language.expressionRule c ⟨id, .integer value base⟩) := by
  show d.Spells value base (if base = 2 ∨ base = 8 ∨ base = 10 ∨ base = 16 then _ else _)
  split
  · exact d.integer_spells c value base
  · next hbase =>
    refine .inr ⟨fun h => hbase ?_, _, rfl⟩
    cases d <;> simp [bases] at h <;> omega

/-- How a rendering of an integer ends that starts with the writer `w`: with a text written that
reads back, or with a fault and nothing written. -/
def WritesInteger (value : Int) (base : Nat) (w : Writer) (o : Outcome) : Prop :=
  base ∈ d.bases ∧ o.failure = none ∧ (∃ text : String,
    Brace.readInteger text.toList = some (value, base) ∧ o.pass.writer = w.write text) ∨
  base ∉ d.bases ∧ (∃ detail, o.failure = some (.malformed detail)) ∧ o.pass.writer = w

variable {d} {value : Int} {base : Nat} {doc : Doc}

theorem Spells.writes (h : d.Spells value base doc) (options : Options) (column : Nat) (p : Pass) :
    d.WritesInteger value base p.writer (doc.run options column p) := by
  rcases h with ⟨hbase, text, rfl, -, hread⟩ | ⟨hbase, detail, rfl⟩
  · exact .inl ⟨hbase, rfl, text, hread, rfl⟩
  · exact .inr ⟨hbase, ⟨detail, rfl⟩, rfl⟩

/-- What has the document of an integer in it writes the integer. -/
theorem Spells.node_writes (h : d.Spells value base doc) (key : NodeKey) (options : Options)
    (column : Nat) (p : Pass) :
    d.WritesInteger value base p.writer ((Doc.node key doc).run options column p) :=
  h.writes options column (p.enter key).2

/-- What is written for the document of an integer reads back. -/
theorem Spells.reads (h : d.Spells value base doc) {options : Options} {s : String}
    (hs : doc.written options = .ok s) : Brace.readInteger s.toList = some (value, base) := by
  rcases h with ⟨-, text, rfl, hline, hread⟩ | ⟨-, detail, rfl⟩
  · rw [Doc.written_text hline] at hs
    cases hs
    exact hread
  · cases hs

end Dialect

/-- An integer is written in exactly the bases of the language: binary, decimal and hexadecimal, in
Swift octal too. Its text reads back as the value and the base, and so two integers that are written
alike are alike. In any other base the tree is at fault and nothing is written. -/
theorem Dialect.integers_denote (d : Dialect) (options : Options) (value : Int) (base : Nat) :
    (∀ c column p, d.WritesInteger value base p.writer
      ((d.language.expressions.integer c value base).run options column p)) ∧
    (∀ setting id column p, d.WritesInteger value base p.writer
      ((d.language.expressionDoc setting ⟨id, .integer value base⟩).run options column p)) ∧
    ∀ id out, (Request.expressionText ⟨id, .integer value base⟩).render d.language options =
        .ok out →
      Brace.readInteger out.text.toList = some (value, base) ∧
      ∀ (d' : Dialect) (options' : Options) id' (value' : Int) (base' : Nat) out',
        (Request.expressionText ⟨id', .integer value' base'⟩).render d'.language options' =
          .ok out' →
        (value, base) ≠ (value', base') → out.text ≠ out'.text := by
  have hreads : ∀ {d : Dialect} {options id value base out},
      (Request.expressionText ⟨id, .integer value base⟩).render d.language options = .ok out →
      Brace.readInteger out.text.toList = some (value, base) := by
    intro d options id value base out hout
    have hwritten : (d.language.expressionDoc (.of options none false)
        ⟨id, .integer value base⟩).written options = .ok out.text :=
      congrArg (Except.map Rendering.text) hout
    rw [written_expressionDoc] at hwritten
    exact (d.expressionRule_spells _ id value base).reads hwritten
  refine ⟨fun c column p => (d.integer_spells c value base).writes options column p,
    fun setting id column p => ?_, fun id out hout => ⟨hreads hout, ?_⟩⟩
  · rw [d.language.expressionDoc_eq]
    exact (d.expressionRule_spells _ id value base).node_writes _ options column p
  · intro d' options' id' value' base' out' hout' hne htext
    have hread := hreads hout
    rw [htext, hreads hout'] at hread
    exact hne (Option.some.inj hread).symm

/-- The least of the integers of 64 bits, whose magnitude is none of them. -/
example : Brace.readInteger (Brace.integerText "0x" (-0x8000000000000000) 16).toList =
    some (-0x8000000000000000, 16) := by decide

end SourcePrinter
