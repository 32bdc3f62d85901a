import CapsuleImaging.Capsule.Axis
import CapsuleImaging.Capsule.Schema
import CapsuleImaging.Capsule.Surface

/-!
# Capsule parameters

What shapes a capsule is read from its prim attribute by attribute. A reading that cannot be used
leaves its parameter at the default and is reported as a **shortfall**; it stops neither the
others nor the whole, so a capsule always has parameters, and its measures are finite.
-/

namespace CapsuleImaging

/-- How finely capsules are built. -/
structure Tessellation where
  /-- The columns around the spine. -/
  radial : Nat := 10
  /-- The rings in either cap. -/
  capAxial : Nat := 4
  /-- The sweep around the spine, in degrees. -/
  sweep : Float := 360
deriving DecidableEq, Repr

namespace Tessellation

/-- The grid of every capsule built so. -/
def grid (t : Tessellation) : Grid :=
  .ofSweep t.radial t.capAxial t.sweep

/-- Whether capsules built so have any points. -/
def isRenderable (t : Tessellation) : Bool :=
  t.grid.IsRenderable

end Tessellation

/-- All that decides what a capsule looks like. -/
structure ShapeParameters where
  height : Float
  radiusBottom : Float
  radiusTop : Float
  axis : Axis
  tessellation : Tessellation
deriving DecidableEq, Repr

namespace ShapeParameters

/-- The parameters of a prim that says nothing about its shape. -/
def defaults (t : Tessellation) : ShapeParameters where
  height := ({} : CapsuleShape).height
  radiusBottom := ({} : CapsuleShape).radiusBottom
  radiusTop := ({} : CapsuleShape).radiusTop
  axis := .z
  tessellation := t

/-- The measures. -/
def shape (p : ShapeParameters) : CapsuleShape where
  radiusBottom := p.radiusBottom
  radiusTop := p.radiusTop
  height := p.height
  sweep := p.tessellation.sweep

/-- The grid of the capsule. -/
def grid (p : ShapeParameters) : Grid :=
  p.tessellation.grid

/-- **The points of the capsule**, turned onto its axis. -/
def points (p : ShapeParameters) : List Point :=
  p.shape.points p.tessellation.radial p.tessellation.capAxial (some p.axis.frame)

end ShapeParameters

/-- Why a parameter, or all of them, were left at the default. -/
inductive Shortfall where
  /-- The stage has no such value. -/
  | unavailable (path : PrimPath) (source : ShapeAttribute) (cause : StageError)
  /-- The prim is typed by neither schema. -/
  | unknownSchema (path : PrimPath)
  /-- The value is not a finite number. -/
  | nonFinite (path : PrimPath) (source : ShapeAttribute) (value : Float)
  /-- The token names no axis. -/
  | invalidAxis (path : PrimPath) (token : String)
deriving DecidableEq, Repr

/-- What a reader is told about a shortfall. -/
def Shortfall.message : Shortfall → String
  | .unavailable path source cause =>
    s!"could not evaluate {source.name} on prim {path.text}: {cause.message}"
  | .unknownSchema path =>
    s!"prim {path.text} is not typed as any capsule schema; using defaults"
  | .nonFinite path source value =>
    let shown := Decimal.written TimeCode.style value
    s!"{source.name} on prim {path.text} is {shown}; using the default"
  | .invalidAxis path token =>
    s!"axis {Text.quoted token} on prim {path.text} is not one of X, Y, Z"

/-- A prim read for its shape. -/
structure Resolution where
  params : ShapeParameters
  schema : Option CapsuleSchema
  shortfalls : List Shortfall
deriving DecidableEq, Repr

namespace ShapeAttribute

variable (stage : Stage) (path : PrimPath) (time : TimeCode)

/-- A measure read from a prim: a finite double. -/
def readMeasure (source : ShapeAttribute) : Except Shortfall Float :=
  match stage.doubleAt path source.name time with
  | .error cause => .error (.unavailable path source cause)
  | .ok value => if value.isFinite then .ok value else .error (.nonFinite path source value)

/-- The axis read from a prim. -/
def readAxis : Except Shortfall Axis :=
  match stage.tokenAt path ShapeAttribute.axis.name time with
  | .error cause => .error (.unavailable path .axis cause)
  | .ok token =>
    match Axis.ofToken? token with
    | some named => .ok named
    | none => .error (.invalidAxis path token)

/-- **Read one attribute**: what it does to the parameters, if it can be used. -/
def read : ShapeAttribute → Except Shortfall (ShapeParameters → ShapeParameters)
  | .height => (readMeasure stage path time .height).map fun x p => { p with height := x }
  | .radius =>
    (readMeasure stage path time .radius).map fun x p =>
      { p with radiusBottom := x, radiusTop := x }
  | .radiusBottom =>
    (readMeasure stage path time .radiusBottom).map fun x p => { p with radiusBottom := x }
  | .radiusTop => (readMeasure stage path time .radiusTop).map fun x p => { p with radiusTop := x }
  | .axis => (readAxis stage path time).map fun named p => { p with axis := named }

end ShapeAttribute

namespace Resolution

/-- Take one reading in: what can be used changes the parameters, the rest is reported. -/
def take (r : Resolution) :
    Except Shortfall (ShapeParameters → ShapeParameters) → Resolution
  | .ok change => { r with params := change r.params }
  | .error shortfall => { r with shortfalls := r.shortfalls ++ [shortfall] }

end Resolution

namespace ShapeParameters

/-- **The parameters of a prim** at a time, with all that fell short. -/
def resolve (stage : Stage) (path : PrimPath) (time : TimeCode) (t : Tessellation) :
    Resolution :=
  match CapsuleSchema.of? stage path with
  | none => ⟨defaults t, none, [.unknownSchema path]⟩
  | some schema =>
    (schema.shapeAttributes.map (·.read stage path time)).foldl Resolution.take
      ⟨defaults t, some schema, []⟩

/-- The parameters of a prim at a time. -/
def ofPrim (stage : Stage) (path : PrimPath) (time : TimeCode) (t : Tessellation) :
    ShapeParameters :=
  (resolve stage path time t).params

end ShapeParameters

end CapsuleImaging
