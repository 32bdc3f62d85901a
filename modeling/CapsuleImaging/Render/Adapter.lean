import CapsuleImaging.Capsule.Parameters
import CapsuleImaging.Capsule.TopologyCache
import CapsuleImaging.Render.Index

/-!
# Adapters

An adapter images prims of a type: it begins their rprims and answers what their mesh and
material are. It reads the stage and never writes to it, and all that it remembers is in the
topology cache it shares with whoever names the same slot.

The **registry** says which adapter images which prim type.
-/

namespace CapsuleImaging

open Std

/-- The type of rprim that carries a mesh. -/
def meshType : String := "mesh"

/-- An adapter for capsules. -/
structure CapsuleAdapter where
  tessellation : Tessellation
  /-- The slot of its topology cache. -/
  slot : Nat
deriving DecidableEq, Repr

namespace CapsuleAdapter

variable (a : CapsuleAdapter)

/-- What the adapter is called. -/
def name : String := "capsule"

/-- Whether an index can image what the adapter delivers. -/
def isSupportedBy (ix : RenderIndex) : Bool :=
  ix.supports meshType

/-- The material a prim is bound to: its binding by default, if that is a path. -/
def material (stage : Stage) (path : PrimPath) : Option PrimPath :=
  match stage.tokenAt path "material:binding" .default with
  | .ok target => (PrimPath.parse target).toOption
  | .error _ => none

/-- Begin the rprim of a prim. -/
def populate (stage : Stage) (path : PrimPath) (ix : RenderIndex) : RenderIndex :=
  ix.insert meshType path (material stage path)

/-- The points of a prim at a time. -/
def points (stage : Stage) (path : PrimPath) (time : TimeCode) : List Point :=
  (ShapeParameters.ofPrim stage path time a.tessellation).points

/-- **The connectivity of every prim of the adapter**, from its cache. It depends on the
tessellation alone, so neither prim nor time is asked for. -/
def topology (caches : CacheBank) : MeshTopology × CacheBank :=
  caches.request a.slot a.tessellation.grid

/-! ## Subprims

What a prim is imaged as may have parts, by name; a capsule is one part, without a name. -/

/-- The parts of a prim. -/
def subprims : List String := [""]

/-- What kind of part a name stands for, if it names one. -/
def subprimType? (subprim : String) : Option String :=
  if subprim = "" then some "capsule" else none

end CapsuleAdapter

/-- The adapters by prim type. -/
structure Registry where
  adapters : ExtTreeMap String CapsuleAdapter

namespace Registry

/-- No adapters. -/
def empty : Registry := ⟨∅⟩

/-- Have prims of a type imaged by an adapter; the one it replaces is given back. -/
def register (r : Registry) (type : String) (a : CapsuleAdapter) :
    Option CapsuleAdapter × Registry :=
  (r.adapters[type]?, ⟨r.adapters.insert type a⟩)

/-- One adapter for capsules of either schema. -/
def ofAdapter (a : CapsuleAdapter) : Registry :=
  CapsuleSchema.all.foldl (fun r schema => (r.register schema.typeName a).2) empty

/-- The adapter for a prim type. -/
def adapterFor? (r : Registry) (type : String) : Option CapsuleAdapter :=
  r.adapters[type]?

/-- The prim types that have an adapter, in order. -/
def types (r : Registry) : List String :=
  r.adapters.keys

/-- The registry in a report: each type with the name of its adapter. -/
def report (r : Registry) : String :=
  let entries := r.types.map fun type =>
    Text.quoted type ++ ": " ++ Text.quoted CapsuleAdapter.name
  "\x7b" ++ ", ".intercalate entries ++ "\x7d"

end Registry

end CapsuleImaging
