/-! Natural numbers as digits in a base, the most significant digit first, and the characters that
stand for the digits. Main statement: the digits of a number read back as the number. -/

namespace SourcePrinter

/-- Puts the digits of `n` before `tail`, one for each step of the fuel at most. -/
def digitsBefore (base : Nat) : Nat → Nat → List Nat → List Nat
  | 0, _, tail => tail
  | fuel + 1, n, tail =>
    if n < base then n :: tail else digitsBefore base fuel (n / base) (n % base :: tail)

/-- The digits of a number in a base of at least two. -/
def digits (base n : Nat) : List Nat := digitsBefore base (n.log2 + 1) n []

/-- The number with the given digits. -/
def ofDigits (base : Nat) (ds : List Nat) : Nat := ds.foldl (fun v d => v * base + d) 0

theorem foldl_digitsBefore {base : Nat} (hbase : 2 ≤ base) (fuel n : Nat) (tail : List Nat)
    (h : n < Nat.pow 2 fuel) :
    (digitsBefore base fuel n tail).foldl (fun v d => v * base + d) 0 =
      tail.foldl (fun v d => v * base + d) n := by
  induction fuel generalizing n tail with
  | zero =>
    have : n = 0 := Nat.lt_one_iff.1 h
    subst this; rfl
  | succ fuel ih =>
    simp only [digitsBefore]
    split
    · simp
    · have hdiv : n / base < Nat.pow 2 fuel := by
        rw [Nat.div_lt_iff_lt_mul (by omega)]
        calc n < Nat.pow 2 fuel * 2 := h
          _ ≤ Nat.pow 2 fuel * base := Nat.mul_le_mul_left _ hbase
      rw [ih _ _ hdiv, List.foldl_cons, Nat.mul_comm, Nat.div_add_mod]

/-- The digits of a number read back as the number. -/
theorem ofDigits_digits {base : Nat} (hbase : 2 ≤ base) (n : Nat) :
    ofDigits base (digits base n) = n :=
  foldl_digitsBefore hbase _ _ [] Nat.lt_log2_self

/-- The decimal digit, or the capital letter, for a digit below thirty-six. -/
def upperDigit (d : Nat) : Char :=
  if d < 10 then Char.ofNat (48 + d) else Char.ofNat (55 + d)

/-- The decimal digit, or the small letter, for a digit below thirty-six. -/
def lowerDigit (d : Nat) : Char :=
  if d < 10 then Char.ofNat (48 + d) else Char.ofNat (87 + d)

end SourcePrinter
