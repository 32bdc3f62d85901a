/-!
# Vectors, points and frames

Positions are computed on `Float` triples and stored as **points**, whose coordinates are rounded
to `Float32`. A frame carries a position into the space it is stored in; the order in which the
four products are added is part of what it does.
-/

namespace CapsuleImaging

/-- Three coordinates. -/
structure Vec3 where
  x : Float
  y : Float
  z : Float
deriving DecidableEq, Repr, Inhabited

/-- The vector `s` of the way from `a` to `b`, weighting the one and the other in each
coordinate. -/
def Vec3.lerp (a b : Vec3) (s : Float) : Vec3 where
  x := a.x * (1 - s) + b.x * s
  y := a.y * (1 - s) + b.y * s
  z := a.z * (1 - s) + b.z * s

/-- A stored position. -/
structure Point where
  x : Float32
  y : Float32
  z : Float32
deriving DecidableEq, Repr, Inhabited

/-- Each coordinate rounded to the nearest that can be stored. -/
def Vec3.toPoint (p : Vec3) : Point :=
  ⟨p.x.toFloat32, p.y.toFloat32, p.z.toFloat32⟩

/-- One column of a frame. -/
structure Column where
  x : Float
  y : Float
  z : Float
  w : Float
deriving DecidableEq, Repr, Inhabited

namespace Column

/-- The unit columns. -/
def unitX : Column := ⟨1, 0, 0, 0⟩

@[inherit_doc unitX]
def unitY : Column := ⟨0, 1, 0, 0⟩

@[inherit_doc unitX]
def unitZ : Column := ⟨0, 0, 1, 0⟩

@[inherit_doc unitX]
def unitW : Column := ⟨0, 0, 0, 1⟩

end Column

/-- A change of coordinates, column by column: the images of the three axes, and the origin. -/
structure Frame where
  xAxis : Column
  yAxis : Column
  zAxis : Column
  origin : Column
deriving DecidableEq, Repr, Inhabited

namespace Frame

/-- The columns in order. -/
def columns (f : Frame) : List Column :=
  [f.xAxis, f.yAxis, f.zAxis, f.origin]

/-- The image of a position. The products are added from the first axis on, the origin last, so
that a zero or an infinity comes out as that sum gives it. -/
def apply (f : Frame) (p : Vec3) : Vec3 where
  x := f.origin.x + (f.zAxis.x * p.z + (f.yAxis.x * p.y + f.xAxis.x * p.x))
  y := f.origin.y + (f.zAxis.y * p.z + (f.yAxis.y * p.y + f.xAxis.y * p.x))
  z := f.origin.z + (f.zAxis.z * p.z + (f.yAxis.z * p.y + f.xAxis.z * p.x))

end Frame

end CapsuleImaging
