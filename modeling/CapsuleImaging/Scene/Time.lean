import CapsuleImaging.Decimal.Shortest

/-!
# Time codes

A scene is read either without a time, which gives what holds by default, or at a number. Two
codes are the same moment when their numbers are equal as numbers: `0.0` and `-0.0` are, and a
NaN is not the same moment as anything, itself included.
-/

namespace CapsuleImaging

/-- When a scene is read. -/
inductive TimeCode where
  /-- No particular time. -/
  | default
  | at (time : Float)
deriving DecidableEq, Repr, Inhabited

namespace TimeCode

/-- Whether the code names no particular time. -/
def isDefault : TimeCode → Bool
  | .default => true
  | .at _ => false

/-- Whether two codes are the same moment. -/
def sameMoment : TimeCode → TimeCode → Bool
  | .default, .default => true
  | .at s, .at t => s == t
  | _, _ => false

/-- Times are written with the fewest digits that read back, positionally from `0.0001` up to
below `1e16`. -/
def style : Decimal.Style where
  leastPositional := -4
  leastScientific := 16
  notANumber := "NaN"
  infinite := "inf"

/-- The code in a message. -/
def text : TimeCode → String
  | .default => "Default"
  | .at t => s!"At({Decimal.written style t})"

example : (TimeCode.at 10).text = "At(10.0)" := by decide +kernel

example : (TimeCode.at (-0.0001)).text = "At(-0.0001)" := by decide +kernel

example : (TimeCode.at 1.5e-5).text = "At(1.5e-5)" := by decide +kernel

example : (TimeCode.at 1e16).text = "At(1e16)" := by decide +kernel

/-- Halfway between two decimals of the same length, the greater is written. -/
example : (TimeCode.at 660426322576503.25).text = "At(660426322576503.3)" := by decide +kernel

end TimeCode

end CapsuleImaging
