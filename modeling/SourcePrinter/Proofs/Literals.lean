import SourcePrinter.Proofs.Marks
import SourcePrinter.Proofs.Wording

/-! Literals read back. A reader goes over the contents of a literal from left to right, gathers the
UTF-16 units that they stand for and joins surrogates to characters. It takes back every escape, it
refuses a quote that is not escaped, and it gets the text of the literal. -/

namespace SourcePrinter

/-! ### UTF-16 -/

/-- The characters of a sequence of UTF-16 units; a surrogate has to have its partner. -/
def joinUnits : List Nat → Option (List Char)
  | [] => some []
  | unit :: rest =>
    if 0xD800 ≤ unit ∧ unit < 0xDC00 then
      match rest with
      | low :: more =>
        if 0xDC00 ≤ low ∧ low < 0xE000 then
          (joinUnits more).map
            (Char.ofNat (0x10000 + (unit - 0xD800) * 0x400 + (low - 0xDC00)) :: ·)
        else none
      | [] => none
    else if 0xDC00 ≤ unit ∧ unit < 0xE000 then none
    else (joinUnits rest).map (Char.ofNat unit :: ·)

/-- The units of a character are joined to the character. -/
theorem joinUnits_utf16Units (c : Char) (rest : List Nat) :
    joinUnits (utf16Units c ++ rest) = (joinUnits rest).map (c :: ·) := by
  have hvalid : c.toNat < 0xD800 ∨ 0xDFFF < c.toNat ∧ c.toNat < 0x110000 := c.valid
  unfold utf16Units
  split
  · rw [List.singleton_append, joinUnits.eq_def]
    dsimp only
    rw [if_neg (by omega), if_neg (by omega), Char.ofNat_toNat]
  · have hjoin : 0x10000 + (0xD800 + (c.toNat - 0x10000) / 0x400 - 0xD800) * 0x400 +
        (0xDC00 + (c.toNat - 0x10000) % 0x400 - 0xDC00) = c.toNat := by omega
    rw [List.cons_append, List.singleton_append, joinUnits, if_pos (by omega), if_pos (by omega),
      hjoin, Char.ofNat_toNat]

theorem joinUnits_flatMap (text : List Char) :
    joinUnits (text.flatMap utf16Units) = some text := by
  induction text with
  | nil => rfl
  | cons c rest ih => rw [List.flatMap_cons, joinUnits_utf16Units, ih, Option.map_some]

theorem utf16Units_lt (c : Char) : ∀ unit ∈ utf16Units c, unit < 0x10000 := by
  have hvalid : c.toNat < 0xD800 ∨ 0xDFFF < c.toNat ∧ c.toNat < 0x110000 := c.valid
  intro unit hunit
  unfold utf16Units at hunit
  split at hunit
  · rw [List.mem_singleton.1 hunit]
    assumption
  · simp only [List.mem_cons, List.not_mem_nil, or_false] at hunit
    omega

namespace Quoted

/-! ### The reader -/

/-- What a reader of a literal is in the middle of. -/
inductive Stage where
  | plain
  /-- After a backslash. -/
  | escape
  /-- After a backslash and a small letter U. -/
  | number
  /-- In braces, with the number so far. -/
  | braced (value : Option Nat)
  /-- In the digits of a unit: how many come after the next one, and the number so far. -/
  | unit (more value : Nat)
  deriving DecidableEq, Repr

/-- A reader of a literal: where it is, and the units that it has got. -/
structure Reader where
  stage : Stage
  units : List Nat
  deriving DecidableEq, Repr

/-- The value of a hexadecimal digit. -/
def hexValue (c : Char) : Option Nat :=
  if '0' ≤ c ∧ c ≤ '9' then some (c.toNat - 48)
  else if 'A' ≤ c ∧ c ≤ 'F' then some (c.toNat - 55)
  else if 'a' ≤ c ∧ c ≤ 'f' then some (c.toNat - 87)
  else none

namespace Reader

/-- The reader has got units, and goes on with plain characters. -/
def got (r : Reader) (units : List Nat) : Reader := ⟨.plain, r.units ++ units⟩

/-- The reader takes one character, unless it is stuck on it. -/
def step (quote : Char) (r : Reader) (c : Char) : Option Reader :=
  match r.stage with
  | .plain =>
    if c = '\\' then some ⟨.escape, r.units⟩
    else if c = quote then none
    else some (r.got (utf16Units c))
  | .escape =>
    if c = 'n' then some (r.got [0x0A])
    else if c = 'r' then some (r.got [0x0D])
    else if c = 't' then some (r.got [0x09])
    else if c = '0' then some (r.got [0x00])
    else if c = '\\' ∨ c = quote then some (r.got (utf16Units c))
    else if c = 'u' then some ⟨.number, r.units⟩
    else none
  | .number =>
    if c = '\x7b' then some ⟨.braced none, r.units⟩
    else (hexValue c).map fun digit => ⟨.unit 2 digit, r.units⟩
  | .braced value =>
    if c = '\x7d' then
      value.bind fun n => if n.isValidChar then some (r.got (utf16Units (Char.ofNat n))) else none
    else (hexValue c).map fun digit => ⟨.braced (some (value.getD 0 * 16 + digit)), r.units⟩
  | .unit more value =>
    (hexValue c).map fun digit =>
      match more with
      | 0 => r.got [value * 16 + digit]
      | more + 1 => ⟨.unit more (value * 16 + digit), r.units⟩

/-- The reader takes a text. -/
def run (quote : Char) (r : Reader) (text : List Char) : Option Reader := text.foldlM (step quote) r

theorem run_append (quote : Char) (r : Reader) (s t : List Char) :
    r.run quote (s ++ t) = (r.run quote s).bind (run quote · t) := List.foldlM_append

theorem run_cons (quote : Char) (r : Reader) (c : Char) (text : List Char) :
    r.run quote (c :: text) = (r.step quote c).bind (run quote · text) := List.foldlM_cons

theorem run_nil (quote : Char) (r : Reader) : r.run quote [] = some r := rfl

end Reader

/-- What the contents of a literal stand for. -/
def read (quote : Char) (text : List Char) : Option (List Char) :=
  (Reader.run quote ⟨.plain, []⟩ text).bind fun r =>
    if r.stage = .plain then joinUnits r.units else none

/-! ### Numbers -/

theorem digits_ne_nil {base : Nat} (hbase : 2 ≤ base) (n : Nat) : digits base n ≠ [] := by
  intro h
  have hn : n = 0 := by
    rw [← ofDigits_digits hbase n, h]
    rfl
  subst hn
  have hzero : digits base 0 = [0] := if_pos (by omega)
  rw [hzero] at h
  cases h

theorem hexValue_upperDigit : ∀ d < 16, hexValue (upperDigit d) = some d := by decide

theorem hexValue_lowerDigit : ∀ d < 16, hexValue (lowerDigit d) = some d := by decide

theorem upperDigit_ne_brace : ∀ d < 16, upperDigit d ≠ '\x7b' := by decide

theorem lowerDigit_ne_brace : ∀ d < 16, lowerDigit d ≠ '\x7d' := by decide

namespace Reader

variable (quote : Char) (units : List Nat)

theorem step_unit {d : Nat} (hd : d < 16) (more value : Nat) :
    step quote ⟨.unit (more + 1) value, units⟩ (upperDigit d) =
      some ⟨.unit more (value * 16 + d), units⟩ := by
  simp [step, hexValue_upperDigit d hd]

/-- Four digits are a unit. -/
theorem run_fourDigits {n : Nat} (hn : n < 0x10000) :
    run quote ⟨.number, units⟩ (fourDigits n) = some ⟨.plain, units ++ [n]⟩ := by
  have hfirst : step quote ⟨.number, units⟩ (upperDigit (n / 0x1000 % 16)) =
      some ⟨.unit 2 (n / 0x1000 % 16), units⟩ := by
    have hd : n / 0x1000 % 16 < 16 := Nat.mod_lt _ (by decide)
    simp [step, hexValue_upperDigit _ hd, upperDigit_ne_brace _ hd]
  have hlast : ∀ value, step quote ⟨.unit 0 value, units⟩ (upperDigit (n % 16)) =
      some ⟨.plain, units ++ [value * 16 + n % 16]⟩ := by
    intro value
    have hd : n % 16 < 16 := Nat.mod_lt _ (by decide)
    simp [step, got, hexValue_upperDigit _ hd]
  have hvalue :
      ((n / 0x1000 % 16 * 16 + n / 0x100 % 16) * 16 + n / 0x10 % 16) * 16 + n % 16 = n := by
    omega
  simp only [fourDigits, run_cons, hfirst, hlast, run_nil, Option.bind_some, hvalue,
    step_unit quote units (Nat.mod_lt _ (show 16 > 0 by decide))]

/-- Digits in braces add up. -/
theorem run_digits {ds : List Nat} (hds : ∀ d ∈ ds, d < 16) (value : Nat) :
    run quote ⟨.braced (some value), units⟩ (ds.map lowerDigit) =
      some ⟨.braced (some (ds.foldl (fun v d => v * 16 + d) value)), units⟩ := by
  induction ds generalizing value with
  | nil => rfl
  | cons d ds ih =>
    have hd : d < 16 := hds d List.mem_cons_self
    have hstep : step quote ⟨.braced (some value), units⟩ (lowerDigit d) =
        some ⟨.braced (some (value * 16 + d)), units⟩ := by
      simp [step, hexValue_lowerDigit d hd, lowerDigit_ne_brace d hd]
    rw [List.map_cons, run_cons, hstep, Option.bind_some,
      ih (fun e he => hds e (List.mem_cons_of_mem _ he)), List.foldl_cons]

end Reader

/-- A character is written by its number in printable characters of ASCII. -/
theorem toNat_of_mem_unicode {style : UnicodeEscape} {c d : Char} (h : d ∈ unicode style c) :
    0x20 ≤ d.toNat ∧ d.toNat < 0x7F := by
  have hupper : ∀ k < 16, 0x20 ≤ (upperDigit k).toNat ∧ (upperDigit k).toNat < 0x7F := by decide
  have hlower : ∀ k < 16, 0x20 ≤ (lowerDigit k).toNat ∧ (lowerDigit k).toNat < 0x7F := by decide
  cases style with
  | utf16 =>
    obtain ⟨unit, -, hd⟩ := List.mem_flatMap.1 h
    have hdigit : ∀ k, 0x20 ≤ (upperDigit (k % 16)).toNat ∧ (upperDigit (k % 16)).toNat < 0x7F :=
      fun k => hupper _ (Nat.mod_lt _ (by decide))
    simp only [fourDigits, List.mem_cons, List.not_mem_nil, or_false] at hd
    rcases hd with rfl | rfl | rfl | rfl | rfl | rfl
    · decide
    · decide
    all_goals exact hdigit _
  | braced =>
    simp only [unicode, List.mem_cons, List.mem_append, List.mem_map, List.not_mem_nil,
      or_false] at h
    rcases h with rfl | rfl | rfl | ⟨k, hk, rfl⟩ | rfl
    · decide
    · decide
    · decide
    · exact hlower k (digits_lt (by decide) _ k hk)
    · decide

/-! ### What is written reads back -/

section

variable {quote : Char} (hquote : quote = '"' ∨ quote = '\'')

include hquote

namespace Reader

theorem run_number (units : List Nat) (rest : List Char) :
    run quote ⟨.plain, units⟩ ('\\' :: 'u' :: rest) = run quote ⟨.number, units⟩ rest := by
  have hslash : step quote ⟨.plain, units⟩ '\\' = some ⟨.escape, units⟩ := rfl
  have hletter : step quote ⟨.escape, units⟩ 'u' = some ⟨.number, units⟩ := by
    rcases hquote with rfl | rfl <;> rfl
  rw [run_cons, hslash, Option.bind_some, run_cons, hletter, Option.bind_some]

theorem run_unicode (style : UnicodeEscape) (c : Char) (units : List Nat) :
    run quote ⟨.plain, units⟩ (unicode style c) = some ⟨.plain, units ++ utf16Units c⟩ := by
  cases style with
  | utf16 =>
    -- One escape for each unit, in four digits.
    have hunits : ∀ more : List Nat, (∀ unit ∈ more, unit < 0x10000) → ∀ units,
        run quote ⟨.plain, units⟩ (more.flatMap fun unit => '\\' :: 'u' :: fourDigits unit) =
          some ⟨.plain, units ++ more⟩ := by
      intro more hmore
      induction more with
      | nil => exact fun units => by rw [List.append_nil]; rfl
      | cons unit more ih =>
        intro units
        have hunit : unit < 0x10000 := hmore unit List.mem_cons_self
        rw [List.flatMap_cons, run_append, run_number hquote, run_fourDigits _ _ hunit,
          Option.bind_some, ih (fun u hu => hmore u (List.mem_cons_of_mem _ hu)), List.append_assoc]
        rfl
    exact hunits _ (utf16Units_lt c) units
  | braced =>
    -- There is a first digit, so the reader has a number when it comes to the brace.
    obtain ⟨d, ds, hds⟩ :=
      List.exists_cons_of_ne_nil (digits_ne_nil (show 2 ≤ 16 by decide) c.toNat)
    have hlt : ∀ e ∈ d :: ds, e < 16 := hds ▸ digits_lt (by decide) c.toNat
    have hvalue : ds.foldl (fun v d => v * 16 + d) d = c.toNat := by
      have h := ofDigits_digits (show 2 ≤ 16 by decide) c.toNat
      rw [hds, ofDigits, List.foldl_cons, Nat.zero_mul, Nat.zero_add] at h
      exact h
    have hopen : step quote ⟨.number, units⟩ '\x7b' = some ⟨.braced none, units⟩ := rfl
    have hfirst : step quote ⟨.braced none, units⟩ (lowerDigit d) =
        some ⟨.braced (some d), units⟩ := by
      have hd : d < 16 := hlt d List.mem_cons_self
      simp [step, hexValue_lowerDigit d hd, lowerDigit_ne_brace d hd]
    have hclose : step quote ⟨.braced (some c.toNat), units⟩ '\x7d' =
        some ⟨.plain, units ++ utf16Units c⟩ := by
      have hvalid : c.toNat.isValidChar := c.valid
      simp [step, got, hvalid]
    rw [unicode, run_number hquote, run_cons, hopen, Option.bind_some, hds, List.map_cons,
      List.cons_append, run_cons, hfirst, Option.bind_some, run_append,
      run_digits _ _ fun e he => hlt e (List.mem_cons_of_mem _ he), hvalue, Option.bind_some,
      run_cons, hclose]
    rfl

theorem run_escapeChar (preserve : Bool) (style : UnicodeEscape) (c : Char) (units : List Nat) :
    run quote ⟨.plain, units⟩ (escapeChar quote preserve style c) =
      some ⟨.plain, units ++ utf16Units c⟩ := by
  have hnumber := run_unicode hquote style c units
  unfold escapeChar
  split_ifs with hslash hline hreturn htab hzero hq hcontrol hkept
  · subst hslash
    rfl
  · subst hline
    rfl
  · subst hreturn
    rfl
  · subst htab
    rfl
  · subst hzero
    rfl
  · subst hq
    rcases hquote with rfl | rfl <;> rfl
  · exact hnumber
  · simp [run, step, got, hslash, hq]
  · exact hnumber

theorem run_escape (preserve : Bool) (style : UnicodeEscape) (text : List Char)
    (units : List Nat) : run quote ⟨.plain, units⟩ (escape quote preserve style text) =
      some ⟨.plain, units ++ text.flatMap utf16Units⟩ := by
  induction text generalizing units with
  | nil => simp [run_nil]
  | cons c rest ih =>
    rw [escape_cons, run_append, run_escapeChar hquote, Option.bind_some, ih, List.append_assoc,
      List.flatMap_cons]

/-- A reader takes a quote only after a backslash that starts an escape. -/
theorem escape_of_step {r r' : Reader} (h : r.step quote quote = some r') : r.stage = .escape := by
  obtain ⟨stage, units⟩ := r
  have hhex : hexValue quote = none := by rcases hquote with rfl | rfl <;> decide
  have hbrace : quote ≠ '\x7b' ∧ quote ≠ '\x7d' ∧ quote ≠ '\\' := by
    rcases hquote with rfl | rfl <;> decide
  cases stage with
  | escape => rfl
  | plain | number | braced | unit => simp [step, hhex, hbrace] at h

end Reader

/-- The contents of a literal are read as the text. -/
theorem read_escape (preserve : Bool) (style : UnicodeEscape) (text : List Char) :
    read quote (escape quote preserve style text) = some text := by
  rw [read, Reader.run_escape hquote, Option.bind_some, if_pos rfl, List.nil_append,
    joinUnits_flatMap]

/-- A quote stands only where a reader is in an escape. -/
theorem escape_of_mem (preserve : Bool) (style : UnicodeEscape) {text before after : List Char}
    (h : escape quote preserve style text = before ++ quote :: after) :
    ∃ units, Reader.run quote ⟨.plain, []⟩ before = some ⟨.escape, units⟩ := by
  have hrun := Reader.run_escape hquote preserve style text []
  rw [h, Reader.run_append] at hrun
  obtain ⟨r, hbefore, hrest⟩ := Option.bind_eq_some_iff.1 hrun
  rw [Reader.run_cons] at hrest
  obtain ⟨r', hstep, -⟩ := Option.bind_eq_some_iff.1 hrest
  obtain ⟨stage, units⟩ := r
  obtain rfl : stage = .escape := Reader.escape_of_step hquote hstep
  exact ⟨units, hbefore⟩

/-- A literal has no control characters, and only characters of ASCII unless others are kept. -/
theorem toNat_of_mem_escape {preserve : Bool} {style : UnicodeEscape} {text : List Char}
    {c : Char} (hc : c ∈ escape quote preserve style text) :
    (0x20 ≤ c.toNat ∧ c.toNat ≠ 0x7F) ∧ (preserve = false → c.toNat < 0x80) := by
  have hplain : 0x20 ≤ c.toNat ∧ c.toNat < 0x7F →
      (0x20 ≤ c.toNat ∧ c.toNat ≠ 0x7F) ∧ (preserve = false → c.toNat < 0x80) := by
    intro hrange
    exact ⟨by omega, fun _ => by omega⟩
  have hlisted : ∀ ds : List Char,
      ds.all (fun d => decide (0x20 ≤ d.toNat ∧ d.toNat < 0x7F)) = true → c ∈ ds →
        0x20 ≤ c.toNat ∧ c.toNat < 0x7F :=
    fun ds hds hmem => of_decide_eq_true (List.all_eq_true.1 hds c hmem)
  -- Every way to write a character but one uses plain characters; the other keeps it.
  obtain ⟨d, -, hd⟩ := List.mem_flatMap.1 hc
  unfold escapeChar at hd
  split_ifs at hd with hslash hline hreturn htab hzero hq hcontrol hkept
  · exact hplain (hlisted _ (by decide) hd)
  · exact hplain (hlisted _ (by decide) hd)
  · exact hplain (hlisted _ (by decide) hd)
  · exact hplain (hlisted _ (by decide) hd)
  · exact hplain (hlisted _ (by decide) hd)
  · subst hq
    rcases hquote with rfl | rfl
    · exact hplain (hlisted _ (by decide) hd)
    · exact hplain (hlisted _ (by decide) hd)
  · exact hplain (toNat_of_mem_unicode hd)
  · rw [List.mem_singleton.1 hd]
    refine ⟨by omega, fun hpreserve => hkept.resolve_right ?_⟩
    rw [hpreserve]
    decide
  · exact hplain (toNat_of_mem_unicode hd)

theorem lineFeed_not_mem_literal (preserve : Bool) (style : UnicodeEscape) (text : List Char) :
    '\n' ∉ (literal quote preserve style text).toList := by
  have hne : '\n' ≠ quote := by rcases hquote with rfl | rfl <;> decide
  have hescape : '\n' ∉ escape quote preserve style text := fun h =>
    absurd (toNat_of_mem_escape hquote h).1.1 (by decide)
  simp [literal, hne, hescape]

end

/-- What a literal with its quotes stands for. -/
def readLiteral : List Char → Option (List Char)
  | [] => none
  | quote :: rest =>
    if (quote = '"' ∨ quote = '\'') ∧ rest.getLast? = some quote then read quote rest.dropLast
    else none

theorem readLiteral_literal {quote : Char} (hquote : quote = '"' ∨ quote = '\'') (preserve : Bool)
    (style : UnicodeEscape) (text : List Char) :
    readLiteral (literal quote preserve style text).toList = some text := by
  rw [literal, String.toList_ofList, readLiteral, if_pos ⟨hquote, List.getLast?_concat⟩,
    List.dropLast_concat, read_escape hquote]

end Quoted

/-! ### Literals of C# and Swift -/

/-- The text of an expression that is a string or a character. -/
def ExpressionForm.quoted? : ExpressionForm → Option (List Char)
  | .string text => some text.toList
  | .character value => some [value]
  | _ => none

/-- A text in one line is written as it is. -/
theorem Doc.written_text {s : String} (hs : '\n' ∉ s.toList) (options : Options) :
    (text s).written options = .ok s := by
  calc (text s).written options
    _ = (Doc.empty ++ text s).written options := rfl
    _ = (Doc.empty.written options).map (· ++ s) := written_append_text _ hs
    _ = .ok ("" ++ s) := rfl
    _ = .ok s := by rw [String.empty_append]

/-- An expression is written by its rule, in a context that reaches its parts. -/
theorem written_expressionDoc {options : Options} {setting : Setting} (l : Language)
    (e : Expression) : (l.expressionDoc setting e).written options =
      (l.expressionRule (l.context setting (e.size - 1)) e).written options := by
  cases e
  exact Doc.written_node _ _

namespace Dialect

variable (d : Dialect) {e : Expression} {value : List Char}

/-- A text is written as a literal, except for a character that C# has no unit for. -/
theorem expressionRule_of_quoted (h : e.form.quoted? = some value) (c : Context) :
    (∃ quote preserve style, (quote = '"' ∨ quote = '\'') ∧
      d.language.expressionRule c e = .text (Quoted.literal quote preserve style value)) ∨
    d = .csharp ∧ ∃ scalar message, e.form = .character scalar ∧ 0x10000 ≤ scalar.toNat ∧
      d.language.expressionRule c e = .malformed message := by
  obtain ⟨id, form⟩ := e
  cases form with
  | string text =>
    cases h
    cases d with
    | csharp => exact .inl ⟨_, _, _, .inl rfl, rfl⟩
    | swift => exact .inl ⟨_, _, _, .inl rfl, rfl⟩
  | character scalar =>
    cases h
    cases d with
    | csharp =>
      by_cases hunit : scalar.toNat < 0x10000
      · exact .inl ⟨_, _, _, .inr rfl, if_pos hunit⟩
      · exact .inr ⟨rfl, scalar, _, rfl, Nat.le_of_not_lt hunit, if_neg hunit⟩
    | swift => exact .inl ⟨_, _, _, .inl rfl, rfl⟩
  | _ => cases h

/-- The rendering of a string or a character reads as its text. -/
theorem rendered_of_quoted (options : Options) (h : e.form.quoted? = some value) :
    (∃ out, (Request.expressionText e).render d.language options = .ok out ∧
      Quoted.readLiteral out.text.toList = some value) ∨
    d = .csharp ∧ ∃ scalar error, e.form = .character scalar ∧ 0x10000 ≤ scalar.toNat ∧
      (Request.expressionText e).render d.language options = .error error := by
  have hwritten : ((Request.expressionText e).render d.language options).map Rendering.text =
      (d.language.expressionRule (d.language.context (.of options none false) (e.size - 1))
        e).written options :=
    written_expressionDoc d.language e
  rcases expressionRule_of_quoted d h
    (d.language.context (.of options none false) (e.size - 1)) with
    ⟨quote, preserve, style, hquote, hrule⟩ | ⟨rfl, scalar, message, hform, hscalar, hrule⟩
  · rw [hrule, Doc.written_text (Quoted.lineFeed_not_mem_literal hquote _ _ _)] at hwritten
    cases hrender : (Request.expressionText e).render d.language options with
    | error error => rw [hrender] at hwritten; cases hwritten
    | ok out =>
      rw [hrender] at hwritten
      have htext : out.text = Quoted.literal quote preserve style value := Except.ok.inj hwritten
      exact .inl ⟨out, rfl, by rw [htext, Quoted.readLiteral_literal hquote]⟩
  · cases hrender : (Request.expressionText e).render Dialect.csharp.language options with
    | ok out =>
      rw [hrule, hrender] at hwritten
      cases hwritten
    | error error => exact .inr ⟨rfl, scalar, error, hform, hscalar, rfl⟩

end Dialect

/-- The contents of a literal are read as its text, no quote stands outside an escape, there is no
control character, and where others than ASCII are not kept there are none. So two strings or
characters of C# or Swift that are written alike are alike. -/
theorem Quoted.literals_read_back {quote : Char} (hquote : quote = '"' ∨ quote = '\'') :
    (∀ preserve style text,
      read quote (escape quote preserve style text) = some text ∧
      (∀ before after, escape quote preserve style text = before ++ quote :: after →
        ∃ units, Reader.run quote ⟨.plain, []⟩ before = some ⟨.escape, units⟩) ∧
      (∀ c ∈ escape quote preserve style text, ¬ (c.toNat < 0x20 ∨ c.toNat = 0x7F)) ∧
      (preserve = false → ∀ c ∈ escape quote preserve style text, c.toNat < 0x80)) ∧
    ∀ (d : Dialect) (options : Options) (e : Expression) (value : List Char),
      e.form.quoted? = some value →
      ((∃ out, (Request.expressionText e).render d.language options = .ok out) ∨
        d = .csharp ∧ ∃ scalar, e.form = .character scalar ∧ 0x10000 ≤ scalar.toNat) ∧
      ∀ (options' : Options) (e' : Expression) (value' : List Char) (out out' : Rendering),
        e'.form.quoted? = some value' →
        (Request.expressionText e).render d.language options = .ok out →
        (Request.expressionText e').render d.language options' = .ok out' →
        value ≠ value' → out.text ≠ out'.text := by
  refine ⟨fun preserve style text => ⟨read_escape hquote preserve style text,
    fun before after => escape_of_mem hquote preserve style, fun c hc => ?_,
    fun hpreserve c hc => (toNat_of_mem_escape hquote hc).2 hpreserve⟩, ?_⟩
  · have hrange := (toNat_of_mem_escape hquote hc).1
    omega
  · intro d options e value he
    have hreads : ∀ {options e value out}, e.form.quoted? = some value →
        (Request.expressionText e).render d.language options = .ok out →
        readLiteral out.text.toList = some value := by
      intro options e value out he hout
      rcases Dialect.rendered_of_quoted d options he with
        ⟨out', hout', hread⟩ | ⟨-, _, _, -, -, herror⟩
      · rw [hout] at hout'
        cases hout'
        exact hread
      · rw [hout] at herror
        cases herror
    refine ⟨?_, fun options' e' value' out out' he' hout hout' hne htext => hne ?_⟩
    · rcases Dialect.rendered_of_quoted d options he with
        ⟨out, hout, -⟩ | ⟨hd, scalar, _, hform, hscalar, -⟩
      · exact .inl ⟨out, hout⟩
      · exact .inr ⟨hd, scalar, hform, hscalar⟩
    · have hread := hreads he hout
      rw [htext, hreads he' hout'] at hread
      exact (Option.some.inj hread).symm

/-- A text that looks like an escape, with a quote and a character of two units, and two strings
of which one is what the other is written as. -/
theorem Quoted.surrogates_read_back :
    ('"' = '"' ∨ '"' = '\'') ∧
      read '"' "\\\\u\\\"\\uD83D\\uDE00".toList = some "\\u\"😀".toList ∧
      ∃ out out', (Request.expressionText ⟨1, .string "\\0"⟩).render .csharp .initial = .ok out ∧
        (Request.expressionText ⟨1, .string "\x00"⟩).render .csharp .initial = .ok out' ∧
        "\\0".toList ≠ "\x00".toList ∧ out.text ≠ out'.text := by
  have h := @literals_read_back '"' (.inl rfl)
  have hescape : escape '"' false .utf16 "\\u\"😀".toList =
      "\\\\u\\\"\\uD83D\\uDE00".toList := by decide
  refine ⟨.inl rfl, ?_, _, _, rfl, rfl, by decide, ?_⟩
  · rw [← hescape]
    exact (h.1 false .utf16 _).1
  · exact (h.2 .csharp .initial ⟨1, .string "\\0"⟩ _ rfl).2 .initial ⟨1, .string "\x00"⟩ _ _ _ rfl
      rfl rfl (by decide)

end SourcePrinter
