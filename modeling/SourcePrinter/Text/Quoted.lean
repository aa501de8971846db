import SourcePrinter.Number.Digits

/-! The contents of a quoted literal: a backslash escapes the quote, the backslash and the control
characters, and a character outside ASCII is kept or written as a Unicode escape. -/

namespace SourcePrinter

/-- How a character is written by its number. -/
inductive UnicodeEscape where
  /-- Four digits for each of its UTF-16 units. -/
  | utf16
  /-- The code point in braces. -/
  | braced
  deriving DecidableEq, Repr

/-- The UTF-16 units of a character: itself, or a high and a low surrogate. -/
def utf16Units (c : Char) : List Nat :=
  if c.toNat < 0x10000 then [c.toNat]
  else [0xD800 + (c.toNat - 0x10000) / 0x400, 0xDC00 + (c.toNat - 0x10000) % 0x400]

namespace Quoted

/-- Four hexadecimal digits. -/
def fourDigits (n : Nat) : List Char :=
  [upperDigit (n / 0x1000 % 16), upperDigit (n / 0x100 % 16), upperDigit (n / 0x10 % 16),
    upperDigit (n % 16)]

/-- A character written by its number. -/
def unicode (style : UnicodeEscape) (c : Char) : List Char :=
  match style with
  | .utf16 => (utf16Units c).flatMap fun unit => '\\' :: 'u' :: fourDigits unit
  | .braced => '\\' :: 'u' :: '\x7b' :: ((digits 16 c.toNat).map lowerDigit ++ ['\x7d'])

/-- One character of a literal. -/
def escapeChar (quote : Char) (preserve : Bool) (style : UnicodeEscape) (c : Char) : List Char :=
  if c = '\\' then ['\\', '\\']
  else if c = '\n' then ['\\', 'n']
  else if c = '\r' then ['\\', 'r']
  else if c = '\t' then ['\\', 't']
  else if c = '\x00' then ['\\', '0']
  else if c = quote then ['\\', c]
  else if c.toNat < 0x20 ∨ c.toNat = 0x7F then unicode style c
  else if c.toNat < 0x80 ∨ preserve then [c]
  else unicode style c

/-- The contents of a literal between two quotes. -/
def escape (quote : Char) (preserve : Bool) (style : UnicodeEscape) (text : List Char) :
    List Char :=
  text.flatMap (escapeChar quote preserve style)

@[simp] theorem escape_nil (quote : Char) (preserve : Bool) (style : UnicodeEscape) :
    escape quote preserve style [] = [] := rfl

@[simp] theorem escape_cons (quote : Char) (preserve : Bool) (style : UnicodeEscape) (c : Char)
    (text : List Char) : escape quote preserve style (c :: text) =
      escapeChar quote preserve style c ++ escape quote preserve style text := by
  simp [escape]

/-- A literal with its quotes. -/
def literal (quote : Char) (preserve : Bool) (style : UnicodeEscape) (text : List Char) : String :=
  String.ofList (quote :: (escape quote preserve style text ++ [quote]))

end Quoted

end SourcePrinter
