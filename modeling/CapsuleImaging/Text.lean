import CapsuleImaging.Text.Printable

/-!
# Texts

How texts are read and written that come from outside or go into messages: without the blanks
around them, as digits in base sixteen, and quoted.
-/

namespace CapsuleImaging.Text

/-! ## Blanks

The characters of the property `White_Space`: what may stand around a word without being part of
it. -/

/-- The blank code points, as ascending ranges, both ends included. -/
def blankRanges : List (Nat × Nat) :=
  [(0x9, 0xd), (0x20, 0x20), (0x85, 0x85), (0xa0, 0xa0), (0x1680, 0x1680), (0x2000, 0x200a),
   (0x2028, 0x2029), (0x202f, 0x202f), (0x205f, 0x205f), (0x3000, 0x3000)]

/-- Whether a character is blank. -/
def isBlank (c : Char) : Bool :=
  blankRanges.any fun (low, high) => low ≤ c.toNat && c.toNat ≤ high

/-- A text without the blanks around it. -/
def trimmed (cs : List Char) : List Char :=
  ((cs.dropWhile isBlank).reverse.dropWhile isBlank).reverse

/-! ## Digits in base sixteen

Written in lower case without padding, read in either case. -/

/-- The digits of a number. -/
def hexDigits (n : Nat) : List Char :=
  Nat.toDigits 16 n

/-- The value of a digit. -/
def hexDigit? (c : Char) : Option Nat :=
  if '0' ≤ c ∧ c ≤ '9' then some (c.toNat - '0'.toNat)
  else if 'a' ≤ c ∧ c ≤ 'f' then some (c.toNat - 'a'.toNat + 10)
  else if 'A' ≤ c ∧ c ≤ 'F' then some (c.toNat - 'A'.toNat + 10)
  else none

/-- The number that some digits write, however many; nothing if one of them is no digit. -/
def hexNumber? (cs : List Char) : Option Nat :=
  (cs.mapM hexDigit?).map (·.foldl (fun n d => 16 * n + d) 0)

/-! ## Quoted text

How a message quotes a text that came from outside: between double quotes, with the quote, the
backslash and the four named controls behind a backslash, every other character that does not
show on its own as `\u` with its number in braces, and the rest as it is. -/

/-- The written form of one character inside quotes. -/
def escapeChar (c : Char) : List Char :=
  if c = '"' ∨ c = '\\' then ['\\', c]
  else if c = '\n' then ['\\', 'n']
  else if c = '\r' then ['\\', 'r']
  else if c = '\t' then ['\\', 't']
  else if c = '\x00' then ['\\', '0']
  else if isPrintable c then [c]
  else ['\\', 'u', '\x7b'] ++ hexDigits c.toNat ++ ['\x7d']

/-- **The quoted form** of a text. -/
def quoted (s : String) : String :=
  String.ofList ('"' :: s.toList.flatMap escapeChar ++ ['"'])

example : quoted "a\"b\\\t" = "\"a\\\"b\\\\\\t\"" := by decide +kernel

/-- A mark that joins the character before it is spelled out, and so is a blank without width. -/
example : (quoted "é\u0301\u200b'").toList =
    '"' :: 'é' :: ['\\', 'u', '\x7b', '3', '0', '1', '\x7d'] ++
      ['\\', 'u', '\x7b', '2', '0', '0', 'b', '\x7d'] ++ ['\'', '"'] := by
  decide +kernel

end CapsuleImaging.Text
