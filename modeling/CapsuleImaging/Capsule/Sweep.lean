/-!
# Sweep

A capsule may be opened along its spine: it then covers the given number of degrees only. Any
number is accepted. What is not finite means the full turn, and what exceeds a full turn either
way is cut to it, so the question whether the body **closes** has an answer for all of them.
-/

namespace CapsuleImaging

namespace Sweep

/-- A number held between two bounds. -/
def clamp (low high x : Float) : Float :=
  if x < low then low else if high < x then high else x

/-- The sweep that is used for the one given, in degrees. -/
def effective (degrees : Float) : Float :=
  if degrees.isFinite then clamp (-360) 360 degrees else 360

/-- **Whether a sweep closes the body**: it is within a ten-thousandth of a degree of a full
turn, either way. -/
def closes (degrees : Float) : Bool :=
  ((effective degrees).abs - 360).abs < 1e-4

/-- Degrees to radians. -/
def radians (degrees : Float) : Float :=
  degrees * (3.14159265358979323846 / 180)

end Sweep

end CapsuleImaging
