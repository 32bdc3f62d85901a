import CapsuleImaging.Json.Value
import CapsuleImaging.Text

/-!
# Reading JSON

`Json.parse?` reads a text that is one value with space around it and nothing else. Space is a
blank, a tab or either kind of line end. Each function here reads from the front of the
characters and gives back what is left; the values within a value are read with a count of how
deep it is still allowed to go, which the length of the text bounds.
-/

namespace CapsuleImaging.Json

/-- The characters behind the space in front. -/
def skipSpace (cs : List Char) : List Char :=
  cs.dropWhile fun c => c = ' ' || c = '\t' || c = '\n' || c = '\r'

/-! ## Strings -/

/-- What stands in a string: a character, or one half of a surrogate pair. -/
inductive Item where
  | char (c : Char)
  | half (unit : Nat)
deriving DecidableEq, Repr

/-- The character that a backslash and a letter stand for. -/
def unescape? : Char → Option Char
  | '"' => some '"'
  | '\\' => some '\\'
  | '/' => some '/'
  | 'b' => some '\x08'
  | 'f' => some '\x0c'
  | 'n' => some '\n'
  | 'r' => some '\r'
  | 't' => some '\t'
  | _ => none

/-- What a number of sixteen bits stands for. -/
def Item.ofUnit (unit : Nat) : Item :=
  if 0xd800 ≤ unit && unit < 0xe000 then .half unit else .char (Char.ofNat unit)

/-- A string up to its closing quote, from behind the opening one. Controls must be escaped. -/
def readItems? : List Char → Option (List Item × List Char)
  | '"' :: rest => some ([], rest)
  | '\\' :: 'u' :: a :: b :: c :: d :: rest =>
    match Text.hexNumber? [a, b, c, d], readItems? rest with
    | some unit, some (items, rest) => some (.ofUnit unit :: items, rest)
    | _, _ => none
  | '\\' :: c :: rest =>
    match unescape? c, readItems? rest with
    | some c, some (items, rest) => some (.char c :: items, rest)
    | _, _ => none
  | c :: rest =>
    if c.toNat < 0x20 then none
    else (readItems? rest).map fun (items, rest) => (.char c :: items, rest)
  | [] => none

/-- The text of a string: halves must stand in pairs, the high one first. -/
def textOfItems? : List Item → Option (List Char)
  | [] => some []
  | .char c :: rest => (textOfItems? rest).map (c :: ·)
  | .half high :: .half low :: rest =>
    if high < 0xdc00 ∧ 0xdc00 ≤ low then
      (textOfItems? rest).map
        (Char.ofNat ((high - 0xd800) * 0x400 + (low - 0xdc00) + 0x10000) :: ·)
    else none
  | .half _ :: _ => none

/-- A string from behind its opening quote, with its text if it has one. -/
def readString? (cs : List Char) : Option (Option String × List Char) :=
  (readItems? cs).map fun (items, rest) => ((textOfItems? items).map String.ofList, rest)

/-! ## Numbers -/

/-- The digits in front, of which there must be one. -/
def readDigits? (cs : List Char) : Option (List Char × List Char) :=
  match cs.takeWhile Char.isDigit with
  | [] => none
  | digits => some (digits, cs.dropWhile Char.isDigit)

/-- The digits before a point: a zero alone, or digits of which the first is not zero. -/
def readWhole? (cs : List Char) : Option (List Char × List Char) :=
  match readDigits? cs with
  | some ('0' :: _ :: _, _) => none
  | other => other

/-- The digits behind a point, if there is a point. -/
def readFraction? : List Char → Option (Option (List Char) × List Char)
  | '.' :: rest => (readDigits? rest).map fun (digits, rest) => (some digits, rest)
  | cs => some (none, cs)

/-- The sign in front, as whether it is a minus. -/
def readSign : List Char → Bool × List Char
  | '+' :: rest => (false, rest)
  | '-' :: rest => (true, rest)
  | cs => (false, cs)

/-- A power of ten, if one is written. -/
def readExponent? : List Char → Option (Option (Bool × List Char) × List Char)
  | c :: rest =>
    if c = 'e' || c = 'E' then
      let (negative, rest) := readSign rest
      (readDigits? rest).map fun (digits, rest) => (some (negative, digits), rest)
    else some (none, c :: rest)
  | [] => some (none, [])

/-- A number. -/
def readNumeral? (cs : List Char) : Option (Numeral × List Char) := do
  let negative := cs.head? == some '-'
  let (whole, rest) ← readWhole? (if negative then cs.tail else cs)
  let (fraction, rest) ← readFraction? rest
  let (exponent, rest) ← readExponent? rest
  return (⟨negative, whole, fraction, exponent⟩, rest)

/-! ## Values -/

mutual

/-- A value with space in front. -/
def readValue? : Nat → List Char → Option (Json × List Char)
  | 0, _ => none
  | depth + 1, cs =>
    match skipSpace cs with
    | 'n' :: 'u' :: 'l' :: 'l' :: rest => some (.null, rest)
    | 't' :: 'r' :: 'u' :: 'e' :: rest => some (.bool true, rest)
    | 'f' :: 'a' :: 'l' :: 's' :: 'e' :: rest => some (.bool false, rest)
    | '"' :: rest => (readString? rest).map fun (text, rest) => (.string text, rest)
    | '[' :: rest =>
      match skipSpace rest with
      | ']' :: rest => some (.array [], rest)
      | _ => (readArray? depth rest).map fun (items, rest) => (.array items, rest)
    | '\x7b' :: rest =>
      match skipSpace rest with
      | '\x7d' :: rest => some (.object [], rest)
      | _ => (readObject? depth rest).map fun (members, rest) => (.object members, rest)
    | cs => (readNumeral? cs).map fun (numeral, rest) => (.number numeral, rest)

/-- The values of an array up to its end, of which there is one at least. -/
def readArray? : Nat → List Char → Option (List Json × List Char)
  | 0, _ => none
  | depth + 1, cs =>
    match readValue? depth cs with
    | none => none
    | some (item, rest) =>
      match skipSpace rest with
      | ',' :: rest => (readArray? depth rest).map fun (items, rest) => (item :: items, rest)
      | ']' :: rest => some ([item], rest)
      | _ => none

/-- The members of an object up to its end, of which there is one at least. -/
def readObject? : Nat → List Char → Option (List (Option String × Json) × List Char)
  | 0, _ => none
  | depth + 1, cs =>
    match skipSpace cs with
    | '"' :: rest =>
      match readString? rest with
      | none => none
      | some (key, rest) =>
        match skipSpace rest with
        | ':' :: rest =>
          match readValue? depth rest with
          | none => none
          | some (value, rest) =>
            match skipSpace rest with
            | ',' :: rest =>
              (readObject? depth rest).map fun (members, rest) =>
                ((key, value) :: members, rest)
            | '\x7d' :: rest => some ([(key, value)], rest)
            | _ => none
        | _ => none
    | _ => none

end

/-- **Read a text that is one value.** -/
def parse? (text : String) : Option Json :=
  let cs := text.toList
  match readValue? (2 * cs.length + 2) cs with
  | some (value, rest) => if (skipSpace rest).isEmpty then some value else none
  | none => none

example : (parse? " [1.50, -0]\n").map (fun | .array items => items.length | _ => 0) = some 2 := by
  decide +kernel

example : (parse? "[1,]").isNone ∧ (parse? "01").isNone ∧ (parse? "\x7b\x7d x").isNone := by
  decide +kernel

end CapsuleImaging.Json
