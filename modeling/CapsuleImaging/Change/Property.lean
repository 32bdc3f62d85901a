import CapsuleImaging.Capsule.Schema
import CapsuleImaging.Change.DirtyBits
import CapsuleImaging.Change.Locator

/-!
# What an edited property makes stale

The name of a property tells which output depends on it. A name is looked up in a table of
**name rules**, the first that matches being the answer, and a name that no rule knows makes
everything stale. The same is told in two ways: as dirty bits, for what has to be delivered
again, and as locators, for what a holder of data has to fetch again.
-/

namespace CapsuleImaging

/-- Which names a rule is about. -/
inductive NameRule where
  /-- This name. -/
  | exactly (name : String)
  /-- Every name that begins so. -/
  | startingWith (head : String)
deriving DecidableEq, Repr

namespace NameRule

/-- Whether a rule is about a name. -/
def applies : NameRule → String → Bool
  | .exactly name, s => name == s
  | .startingWith head, s => head.toList.isPrefixOf s.toList

/-- What the first rule about a name says. -/
def lookup? {α : Type} (table : List (NameRule × α)) (name : String) : Option α :=
  (table.find? (·.1.applies name)).map (·.2)

end NameRule

namespace DirtyBits

/-- The properties that any geometric prim has, and the category that depends on them. -/
def propertyTable : List (NameRule × DirtyBits) :=
  [(.exactly "visibility", visibility),
   (.exactly "extent", extent),
   (.exactly "doubleSided", doubleSided),
   (.exactly "xformOpOrder", transform),
   (.exactly "material:binding", materialId),
   (.startingWith "xformOp:", transform),
   (.startingWith "material:binding", materialId),
   (.startingWith "primvars:", primvar)]

/-- What an edit of a property makes stale on any geometric prim. -/
def ofProperty (name : String) : DirtyBits :=
  (NameRule.lookup? propertyTable name).getD all

/-- What an edit of a property makes stale on a capsule: what shapes it moves its points. -/
def ofCapsuleProperty (name : String) : DirtyBits :=
  if (ShapeAttribute.ofName? name).isSome then points else ofProperty name

/-- Where the output of each category is found. -/
def locatorTable : List (DirtyBits × Locator) :=
  [(points, .points),
   (topology, .topology),
   (transform, .xform),
   (visibility, .visibility),
   (extent, .extent),
   (doubleSided, .doubleSided),
   (primvar, .primvars),
   (materialId, .materialBindings)]

/-- **Where the output of a set of categories is found.** Of all categories together, that is
everywhere. -/
def locators (bits : DirtyBits) : LocatorSet :=
  if bits.contains all then .universal
  else .ofList ((locatorTable.filter fun (category, _) => bits.contains category).map (·.2))

end DirtyBits

namespace LocatorSet

/-- Where a capsule keeps what one of its shape attributes decides. The single radius of the
older schema decides both. -/
def parametersOf : ShapeAttribute → List Locator
  | .radius => [.capsule ShapeAttribute.radiusBottom.name, .capsule ShapeAttribute.radiusTop.name]
  | a => [.capsule a.name]

/-- A set with all that an edit of a property makes stale in a capsule's data. -/
def invalidateProperty (s : LocatorSet) (name : String) : LocatorSet :=
  match ShapeAttribute.ofName? name with
  | some a => s.insertAll (parametersOf a ++ [.points])
  | none => s.union (DirtyBits.ofProperty name).locators

/-- **What edits of some properties make stale** in a capsule's data. -/
def invalidatedBy (names : List String) : LocatorSet :=
  names.foldl invalidateProperty empty

end LocatorSet

end CapsuleImaging
