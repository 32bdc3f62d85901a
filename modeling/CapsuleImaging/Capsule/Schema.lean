import CapsuleImaging.Scene.Stage

/-!
# Capsule schemas

A capsule prim is typed by one of two versions of its schema. The newer has a radius for either
end, the older a single one for both; height and axis they share.
-/

namespace CapsuleImaging

/-- An attribute that shapes a capsule. -/
inductive ShapeAttribute where
  | height
  /-- The radius of both ends, in the older schema. -/
  | radius
  | radiusBottom
  | radiusTop
  | axis
deriving DecidableEq, Repr

namespace ShapeAttribute

/-- Every such attribute. -/
def all : List ShapeAttribute :=
  [.height, .radius, .radiusBottom, .radiusTop, .axis]

/-- The name of the attribute on a prim. -/
def name : ShapeAttribute → String
  | .height => "height"
  | .radius => "radius"
  | .radiusBottom => "radiusBottom"
  | .radiusTop => "radiusTop"
  | .axis => "axis"

/-- The shape attribute of a name, if it names one. -/
def ofName? (name : String) : Option ShapeAttribute :=
  all.find? (·.name == name)

end ShapeAttribute

/-- A version of the capsule schema. -/
inductive CapsuleSchema where
  /-- The newer, with a radius for either end. -/
  | dualRadius
  /-- The older, with a single radius. -/
  | singleRadius
deriving DecidableEq, Repr

namespace CapsuleSchema

/-- The versions, the one that is looked for first in front. -/
def all : List CapsuleSchema := [.dualRadius, .singleRadius]

/-- The name of the prim type that follows the schema. -/
def typeName : CapsuleSchema → String
  | .dualRadius => "Capsule_1"
  | .singleRadius => "Capsule"

/-- The schema of a prim type, if there is one. -/
def ofTypeName? (type : String) : Option CapsuleSchema :=
  all.find? (·.typeName == type)

/-- The schema a prim is typed by. -/
def of? (stage : Stage) (path : PrimPath) : Option CapsuleSchema :=
  all.find? fun schema => stage.isA path schema.typeName

/-- The attributes that shape a capsule of the schema, in the order they are read. -/
def shapeAttributes : CapsuleSchema → List ShapeAttribute
  | .dualRadius => [.height, .radiusBottom, .radiusTop, .axis]
  | .singleRadius => [.height, .radius, .axis]

end CapsuleSchema

end CapsuleImaging
