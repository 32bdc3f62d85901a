import CapsuleImaging.Mesh.Vector

/-!
# Scene values

What an attribute can hold. Doubles and triples of doubles blend into one another; everything
else is held until it changes.
-/

namespace CapsuleImaging

/-- What an attribute holds. -/
inductive Value where
  | bool (b : Bool)
  | int (n : Int64)
  | double (x : Float)
  | token (text : String)
  | vec3 (v : Vec3)
deriving DecidableEq, Repr

/-- The kinds of value. -/
inductive ValueKind where
  | bool
  | int
  | double
  | token
  | double3
deriving DecidableEq, Repr

/-- The name of a kind in a message. -/
def ValueKind.name : ValueKind → String
  | .bool => "bool"
  | .int => "int"
  | .double => "double"
  | .token => "token"
  | .double3 => "double3"

namespace Value

/-- The kind of a value. -/
def kind : Value → ValueKind
  | .bool _ => .bool
  | .int _ => .int
  | .double _ => .double
  | .token _ => .token
  | .vec3 _ => .double3

/-- The value read as a double; an integer is rounded to the nearest. -/
def asDouble? : Value → Option Float
  | .double x => some x
  | .int n => some (Float.ofInt n.toInt)
  | _ => none

/-- The value read as a token. -/
def asToken? : Value → Option String
  | .token text => some text
  | _ => none

/-- The value `s` of the way from one to another. Two values that do not blend give the first. -/
def lerp : Value → Value → Float → Value
  | .double a, .double b, s => .double (a + (b - a) * s)
  | .vec3 a, .vec3 b, s => .vec3 (a.lerp b s)
  | a, _, _ => a

end Value

end CapsuleImaging
