import CapsuleImaging.Mesh.Vector

/-!
# The spine axis

A capsule is built along its own `z` and turned onto the axis its prim names. The frames permute
the coordinate axes cyclically, so that a face keeps the side it shows.
-/

namespace CapsuleImaging

/-- The axis a capsule's spine lies along. -/
inductive Axis where
  | x
  | y
  | z
deriving DecidableEq, Repr, Inhabited

namespace Axis

/-- Every axis. -/
def all : List Axis := [.x, .y, .z]

/-- The token that names the axis. -/
def token : Axis → String
  | .x => "X"
  | .y => "Y"
  | .z => "Z"

/-- The axis a token names. -/
def ofToken? (token : String) : Option Axis :=
  all.find? (·.token == token)

/-- The frame that turns the `z` axis onto this one. -/
def frame : Axis → Frame
  | .x => ⟨.unitY, .unitZ, .unitX, .unitW⟩
  | .y => ⟨.unitZ, .unitX, .unitY, .unitW⟩
  | .z => ⟨.unitX, .unitY, .unitZ, .unitW⟩

end Axis

end CapsuleImaging
