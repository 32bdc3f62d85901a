/-!
# JSON values

A JSON text as it is written: numbers by their digits and objects by their members in order,
repeated keys included, since what to make of them is up to the reader of the value. A string
may name one half of a surrogate pair without the other. The grammar allows it, but no text
corresponds to it, so the text of a string is optional.
-/

namespace CapsuleImaging

/-- A JSON number as it is written. -/
structure Numeral where
  negative : Bool
  /-- The digits before the point, at least one. -/
  whole : List Char
  /-- The digits behind the point, if there is one. -/
  fraction : Option (List Char)
  /-- Whether the power of ten is negative, and its digits, if one is written. -/
  exponent : Option (Bool × List Char)
deriving DecidableEq, Repr

/-- A JSON value as it is written. -/
inductive Json where
  | null
  | bool (b : Bool)
  | number (numeral : Numeral)
  | string (text : Option String)
  | array (items : List Json)
  | object (members : List (Option String × Json))
deriving Repr

namespace Numeral

/-- The value of a decimal digit. -/
def digitValue (c : Char) : Nat :=
  c.toNat - '0'.toNat

/-- The number that decimal digits write. -/
def digitsValue (ds : List Char) : Nat :=
  ds.foldl (fun n d => 10 * n + digitValue d) 0

/-- The integer that is written, if neither point nor power of ten is. Minus zero is no
integer. -/
def toInt? (n : Numeral) : Option Int :=
  if n.fraction.isSome || n.exponent.isSome then none
  else
    let value := digitsValue n.whole
    if n.negative then if value = 0 then none else some (-value) else some value

/-! ## Reading a float

Digits are taken into a significand as long as it fits 64 bits. From the first that does not fit
on, digits before the point count as a power of ten each, and digits behind it are dropped. The
significand is then scaled by a single power of ten, after being brought into reach of one if
the power is below all of them. A number too great to be represented is refused. -/

/-- A significand with as many further digits as fit, and the digits that are left. -/
def absorb : Nat → List Char → Nat × List Char
  | significand, [] => (significand, [])
  | significand, d :: ds =>
    let next := 10 * significand + digitValue d
    if next < UInt64.size then absorb next ds else (significand, d :: ds)

/-- A power of ten, for powers up to the greatest that is finite. -/
def powerOfTen (n : Nat) : Float :=
  Float.ofScientific 1 false n

/-- Divided by the greatest finite power of ten, so many times. -/
def sink : Nat → Float → Float
  | 0, x => x
  | n + 1, x => if x == 0 then x else sink n (x / powerOfTen 308)

/-- A number times a power of ten, unless it is too great. -/
def scale? (x : Float) (power : Int) : Option Float :=
  if power < 0 then
    let steps := (power.natAbs - 1) / 308
    some (sink steps x / powerOfTen (power.natAbs - 308 * steps))
  else if x == 0 then some x
  else if 308 < power then none
  else
    let scaled := x * powerOfTen power.natAbs
    if scaled.isFinite then some scaled else none

/-- The greatest power of ten that is looked at. -/
def greatestPower : Nat := 2147483647

/-- **The float that is written**, unless it is too great. -/
def toFloat? (n : Numeral) : Option Float :=
  let (head, uncounted) := absorb 0 n.whole
  let fraction := n.fraction.getD []
  let (significand, dropped) := absorb head fraction
  let places : Int := (uncounted.length : Int) - (fraction.length - dropped.length : Nat)
  let magnitude :=
    match n.exponent with
    | none => scale? (Float.ofNat significand) places
    | some (negative, digits) =>
      let power := digitsValue digits
      if power ≤ greatestPower then
        scale? (Float.ofNat significand) (if negative then places - power else places + power)
      else if significand = 0 || negative then some 0
      else none
  magnitude.map fun x => if n.negative then -x else x

end Numeral

end CapsuleImaging
