import CapsuleImaging.Change.Property
import CapsuleImaging.Render.Adapter

/-!
# Data sources

The data of an imaged prim can be fetched piece by piece, each piece by its locator. A piece is
computed when it is fetched; nothing is kept but the connectivity, in the adapter's cache.
-/

namespace CapsuleImaging

/-- A piece of a capsule's data. -/
inductive CapsuleDatum where
  | height
  | radiusBottom
  | radiusTop
  | axis
  | topology
  | points
deriving DecidableEq, Repr

namespace CapsuleDatum

/-- Every piece, in the order they are listed. -/
def all : List CapsuleDatum :=
  [.height, .radiusBottom, .radiusTop, .axis, .topology, .points]

/-- Where a piece is found. -/
def locator : CapsuleDatum → Locator
  | .height => .capsule "height"
  | .radiusBottom => .capsule "radiusBottom"
  | .radiusTop => .capsule "radiusTop"
  | .axis => .capsule "axis"
  | .topology => .topology
  | .points => .points

/-- The piece at a locator; a container is no piece. -/
def at? (l : Locator) : Option CapsuleDatum :=
  all.find? (·.locator == l)

end CapsuleDatum

/-- What a piece of data is. -/
inductive DataValue where
  | double (x : Float)
  | token (text : String)
  | points (points : List Point)
  | topology (topology : MeshTopology)
deriving DecidableEq, Repr

/-- The data of one capsule at one time. -/
structure CapsuleSource where
  stage : Stage
  path : PrimPath
  time : TimeCode
  adapter : CapsuleAdapter

namespace CapsuleSource

/-- The data of a part of a prim, if it has such a part. -/
def ofSubprim? (a : CapsuleAdapter) (stage : Stage) (path : PrimPath) (subprim : String)
    (time : TimeCode) : Option CapsuleSource :=
  if subprim = "" then some ⟨stage, path, time, a⟩ else none

/-- The locators that have data, in order. -/
def names : List Locator :=
  CapsuleDatum.all.map (·.locator)

/-- The parameters of the capsule. -/
def params (src : CapsuleSource) : ShapeParameters :=
  .ofPrim src.stage src.path src.time src.adapter.tessellation

/-- Fetch one piece. -/
def fetch (src : CapsuleSource) (caches : CacheBank) : CapsuleDatum → DataValue × CacheBank
  | .height => (.double src.params.height, caches)
  | .radiusBottom => (.double src.params.radiusBottom, caches)
  | .radiusTop => (.double src.params.radiusTop, caches)
  | .axis => (.token src.params.axis.token, caches)
  | .topology =>
    let (topology, caches) := src.adapter.topology caches
    (.topology topology, caches)
  | .points => (.points src.params.points, caches)

/-- **Fetch what is at a locator**, if anything is. -/
def get (src : CapsuleSource) (caches : CacheBank) (l : Locator) :
    Option DataValue × CacheBank :=
  match CapsuleDatum.at? l with
  | some datum =>
    let (value, caches) := src.fetch caches datum
    (some value, caches)
  | none => (none, caches)

end CapsuleSource

namespace CapsuleAdapter

/-- What edits of some properties make stale in a part of a prim. -/
def invalidated (subprim : String) (names : List String) : LocatorSet :=
  if subprim = "" then .invalidatedBy names else .empty

end CapsuleAdapter

end CapsuleImaging
