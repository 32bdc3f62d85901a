import CapsuleImaging.Capsule.Grid

/-!
# The capsule surface

A capsule is a body of some height along `z`, closed by a dome of its own radius at either end.
When the radii differ, the body is the cone tangent to both spheres, and the caps meet it at the
**seam** latitude instead of the equator. The points come in the grid's order, from the bottom
pole to the top; a measure that is not finite counts as zero.
-/

namespace CapsuleImaging

/-- The measures of a capsule. -/
structure CapsuleShape where
  radiusBottom : Float := 0.5
  radiusTop : Float := 0.5
  height : Float := 2
  /-- The sweep around the spine, in degrees. -/
  sweep : Float := 360
deriving DecidableEq, Repr

namespace CapsuleShape

/-- A quarter turn. -/
def quarterTurn : Float := 1.57079632679489661923

/-- A measure, or zero for what is not one. -/
def finiteOrZero (x : Float) : Float :=
  if x.isFinite then x else 0

/-- The latitude at which the body is tangent to both spheres. Without a height the smaller
sphere lies within the larger, and the seam goes to its pole. -/
def seamLatitude (radiusBottom radiusTop height : Float) : Float :=
  let difference := radiusBottom - radiusTop
  if 0 < height then (Sweep.clamp (-1) 1 (difference / height)).asin
  else if 0 < difference then quarterTurn
  else if difference < 0 then -quarterTurn
  else 0

/-- The grid of a shape at a resolution. -/
def grid (shape : CapsuleShape) (radial capAxial : Nat) : Grid :=
  .ofSweep radial capAxial (Sweep.effective shape.sweep)

/-- The direction of a column, as cosine and sine. It depends on the columns and the sweep alone. -/
def direction (sweep : Float) (radial column : Nat) : Float × Float :=
  let angle := (Float.ofNat column / Float.ofNat radial) * Sweep.radians sweep
  (angle.cos, angle.sin)

/-- The directions of a ring's points. -/
def directions (sweep : Float) (radial ringLength : Nat) : List (Float × Float) :=
  (List.range ringLength).map (direction sweep radial)

/-- The pole of the bottom cap. -/
def bottomPole (shape : CapsuleShape) : Vec3 :=
  ⟨0, 0, -(0.5 * finiteOrZero shape.height) - finiteOrZero shape.radiusBottom⟩

/-- The pole of the top cap. -/
def topPole (shape : CapsuleShape) : Vec3 :=
  ⟨0, 0, 0.5 * finiteOrZero shape.height + finiteOrZero shape.radiusTop⟩

/-- The latitude at which the body meets both caps. -/
def seam (shape : CapsuleShape) : Float :=
  seamLatitude (finiteOrZero shape.radiusBottom) (finiteOrZero shape.radiusTop)
    (finiteOrZero shape.height)

/-- Radius and height of the ring at a step up the bottom cap. The pole would be step `0`, and the
last step is at the seam. -/
def bottomRing (shape : CapsuleShape) (capAxial step : Nat) : Float × Float :=
  let radius := finiteOrZero shape.radiusBottom
  let latitude :=
    -quarterTurn + (shape.seam + quarterTurn) * (Float.ofNat step / Float.ofNat capAxial)
  (radius * latitude.cos, -(0.5 * finiteOrZero shape.height) + radius * latitude.sin)

/-- Radius and height of the ring at a step up the top cap. Step `0` is at the seam, and the pole
would be the step after the last. -/
def topRing (shape : CapsuleShape) (capAxial step : Nat) : Float × Float :=
  let radius := finiteOrZero shape.radiusTop
  let latitude :=
    shape.seam + (quarterTurn - shape.seam) * (Float.ofNat step / Float.ofNat capAxial)
  (radius * latitude.cos, 0.5 * finiteOrZero shape.height + radius * latitude.sin)

/-- The position on a ring of some radius and height, in a direction. -/
def onRing (ring direction : Float × Float) : Vec3 :=
  ⟨ring.1 * direction.1, ring.1 * direction.2, ring.2⟩

/-- A position as it is stored, in a frame if one is given. -/
def place (frame : Option Frame) (p : Vec3) : Point :=
  match frame with
  | some f => (f.apply p).toPoint
  | none => p.toPoint

/-- Push the points of a ring of some radius and height. -/
def pushRing (frame : Option Frame) (directions : List (Float × Float)) (out : Array Point)
    (ring : Float × Float) : Array Point :=
  directions.foldl (fun out direction => out.push (place frame (onRing ring direction))) out

/-- **Push the points of a capsule** behind those of a buffer, in a frame if one is given. Nothing
is pushed if the resolution does not suffice. -/
def pointsInto (buffer : Array Point) (shape : CapsuleShape) (radial capAxial : Nat)
    (frame : Option Frame) : Array Point :=
  let grid := shape.grid radial capAxial
  if grid.IsRenderable then
    let directions := directions (Sweep.effective shape.sweep) radial grid.ringLength
    let out := buffer.push (place frame shape.bottomPole)
    let out := (List.range' 1 capAxial).foldl
      (fun out step => pushRing frame directions out (shape.bottomRing capAxial step)) out
    let out := (List.range capAxial).foldl
      (fun out step => pushRing frame directions out (shape.topRing capAxial step)) out
    out.push (place frame shape.topPole)
  else buffer

/-- **The points of a capsule**, pushed into a buffer of their own. -/
def points (shape : CapsuleShape) (radial capAxial : Nat) (frame : Option Frame) : List Point :=
  (shape.pointsInto #[] radial capAxial frame).toList

end CapsuleShape

end CapsuleImaging
