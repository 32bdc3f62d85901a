/-!
# The shortest decimal of a binary number

A finite `Float` is `significand · 2 ^ exponent`. Every real between the midpoints to its two
neighbours rounds to it, and the midpoints themselves do when the significand is even. Of the
decimals in that interval the **shortest** has the fewest digits, and of those the nearest to
the number; a tie goes up. All of it is exact arithmetic on natural numbers: seventeen digits
always suffice, so the search looks at seventeen grids and takes the first with a hit.
-/

namespace CapsuleImaging

/-- A positive decimal: the digits, of which the first is not zero, read as a fraction
`0.d₁d₂…` times ten to the power `point`. -/
structure Decimal where
  digits : List Char
  point : Int
deriving DecidableEq, Repr

/-- A finite binary number without its sign. -/
structure Binary where
  significand : Nat
  exponent : Int
deriving DecidableEq, Repr

namespace Binary

/-- The place of a significand's leading bit. -/
def leading : Nat := 1 <<< 52

/-- The magnitude of a finite `Float`. -/
def ofFloat (x : Float) : Binary :=
  let word := x.toBits.toNat
  let fraction := word % leading
  let field : Nat := word / leading % 2048
  if field = 0 then ⟨fraction, -1074⟩ else ⟨leading + fraction, (field : Int) - 1075⟩

/-- The number itself, counted in quarters of its last place. -/
def centre (b : Binary) : Nat :=
  4 * b.significand

/-- The upper end of what rounds to the number, in the same quarters. -/
def upper (b : Binary) : Nat :=
  4 * b.significand + 2

/-- The lower end. Below a power of two the neighbours stand twice as close. -/
def lower (b : Binary) : Nat :=
  if b.significand = leading ∧ -1074 < b.exponent then 4 * b.significand - 1
  else 4 * b.significand - 2

/-- How many decimal digits a natural number has. -/
def digitCount (n : Nat) : Nat :=
  (Nat.toDigits 10 n).length

/-- The power `p` of ten with `10 ^ (p - 1) ≤ b < 10 ^ p`, for `b` not zero. -/
def magnitude (b : Binary) : Int :=
  let num := b.significand <<< b.exponent.toNat
  let den := 1 <<< (-b.exponent).toNat
  if den ≤ num then digitCount (num / den) else 1 - (digitCount ((den - 1) / num) : Int)

/-- The better of the number's two neighbours among the multiples of `10 ^ k`, if one of them
rounds to the number. Both are compared as multiples of one unit, fine enough for the quarters
and for `10 ^ k`. -/
def onGrid? (b : Binary) (k : Int) : Option Nat :=
  let quarter := Nat.pow 10 (-k).toNat <<< (b.exponent - 2).toNat
  let step := Nat.pow 10 k.toNat <<< (2 - b.exponent).toNat
  let centre := b.centre * quarter
  let inside (y : Nat) : Bool :=
    if b.significand % 2 = 0 then b.lower * quarter ≤ y && y ≤ b.upper * quarter
    else b.lower * quarter < y && y < b.upper * quarter
  let c := centre / step
  match inside (c * step), inside ((c + 1) * step) with
  | true, true => some (if centre - c * step < (c + 1) * step - centre then c else c + 1)
  | true, false => some c
  | false, true => some (c + 1)
  | false, false => none

/-- **The shortest decimal** that rounds to the number, for a number that is not zero. -/
def shortest (b : Binary) : Decimal :=
  let p := b.magnitude
  let hit := (List.range 17).findSome? fun (i : Nat) => (b.onGrid? (p - (i + 1))).map (·, i + 1)
  let (c, n) := hit.getD (b.centre, digitCount b.centre)
  if c = Nat.pow 10 n then ⟨['1'], p + 1⟩ else ⟨Nat.toDigits 10 c, p⟩

end Binary

namespace Decimal

/-- Written with a point in its place, and a digit at least on either side of it. -/
def positional (d : Decimal) : List Char :=
  let n := d.digits.length
  if d.point ≤ 0 then ['0', '.'] ++ List.replicate (-d.point).toNat '0' ++ d.digits
  else if n ≤ d.point.toNat then
    d.digits ++ List.replicate (d.point.toNat - n) '0' ++ ['.', '0']
  else d.digits.take d.point.toNat ++ '.' :: d.digits.drop d.point.toNat

/-- Written with one digit before the point and a power of ten behind. -/
def scientific (d : Decimal) : List Char :=
  let power := (toString (d.point - 1)).toList
  match d.digits with
  | [] => []
  | [lead] => lead :: 'e' :: power
  | lead :: rest => lead :: '.' :: rest ++ 'e' :: power

/-- What a format decides for itself about a `Float`: the powers of ten, as in `d.ddd · 10 ^ e`,
that it writes positionally, and its words for what is not a finite number. -/
structure Style where
  leastPositional : Int
  leastScientific : Int
  notANumber : String
  infinite : String

/-- **A `Float` written out** in a style, always with a point or a power of ten. -/
def written (style : Style) (x : Float) : String :=
  if x.isNaN then style.notANumber
  else
    let sign := if x.toBits >>> 63 = 1 then "-" else ""
    if !x.isFinite then sign ++ style.infinite
    else if x == 0 then sign ++ "0.0"
    else
      let d := (Binary.ofFloat x).shortest
      let chars :=
        if style.leastPositional ≤ d.point - 1 ∧ d.point - 1 < style.leastScientific then
          d.positional
        else d.scientific
      sign ++ String.ofList chars

end Decimal

end CapsuleImaging
