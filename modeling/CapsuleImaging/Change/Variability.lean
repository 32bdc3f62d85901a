import CapsuleImaging.Change.Property

/-!
# Variability

A move in time concerns a prim only in the categories that vary with it. Which do is found by
asking the stage about the prim's attributes, and since asking is what costs, an attribute is
asked about only while its category is not known to vary. What was asked is part of the record.
-/

namespace CapsuleImaging

/-- A question to the stage: may this attribute of this prim depend on the time? -/
structure Query where
  path : PrimPath
  name : String
deriving DecidableEq, Repr

/-- What is known to vary, and what has been asked to learn it. -/
structure Variability where
  varying : DirtyBits := .clean
  asked : List Query := []
deriving DecidableEq, Repr

namespace Variability

/-- Record that a category varies. -/
def mark (v : Variability) (category : DirtyBits) : Variability :=
  { v with varying := v.varying ∪ category }

/-- Whether a category is known to vary. -/
def isVarying (v : Variability) (category : DirtyBits) : Bool :=
  v.varying.contains category

/-- **Learn whether a category varies by an attribute.** The stage is asked only if the category
is not known to vary already. -/
def check (v : Variability) (stage : Stage) (path : PrimPath) (name : String)
    (category : DirtyBits) : Variability :=
  if v.isVarying category then v
  else
    let asked : Variability := { v with asked := v.asked ++ [⟨path, name⟩] }
    if stage.mayVary path name then asked.mark category else asked

/-- The attributes by which the output of any geometric prim varies, with the category. -/
def propertyTable : List (NameRule × DirtyBits) :=
  [(.exactly "xformOpOrder", .transform),
   (.startingWith "xformOp:", .transform),
   (.exactly "visibility", .visibility),
   (.exactly "extent", .extent),
   (.startingWith "primvars:", .primvar)]

/-- What there is to check on any geometric prim: its authored attributes, in order. -/
def gprimChecks (stage : Stage) (path : PrimPath) : List (String × DirtyBits) :=
  (stage.attributeNames path).filterMap fun name =>
    (NameRule.lookup? propertyTable name).map (name, ·)

/-- What there is to check on a capsule besides: what shapes it moves its points. -/
def shapeChecks (stage : Stage) (path : PrimPath) : List (String × DirtyBits) :=
  match CapsuleSchema.of? stage path with
  | some schema => schema.shapeAttributes.map fun a => (a.name, .points)
  | none => []

/-- Make some checks, one after another. -/
def checkAll (v : Variability) (stage : Stage) (path : PrimPath)
    (checks : List (String × DirtyBits)) : Variability :=
  checks.foldl (fun v (name, category) => v.check stage path name category) v

/-- Learn what varies on any geometric prim. -/
def trackGprim (v : Variability) (stage : Stage) (path : PrimPath) : Variability :=
  v.checkAll stage path (gprimChecks stage path)

/-- **Learn what varies on a capsule.** -/
def trackCapsule (v : Variability) (stage : Stage) (path : PrimPath) : Variability :=
  (v.trackGprim stage path).checkAll stage path (shapeChecks stage path)

end Variability

end CapsuleImaging
