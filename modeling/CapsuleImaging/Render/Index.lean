import CapsuleImaging.Change.DirtyBits
import CapsuleImaging.Mesh.Topology
import CapsuleImaging.Scene.Path
import Std.Data.ExtTreeMap

/-!
# The render index

Where imaged prims arrive. Each is an **rprim**: its mesh as delivered so far, the material it is
bound to, and the dirty bits its consumer has been told of and not taken yet. A message about a
path without an rprim is dropped.
-/

namespace CapsuleImaging

open Std

/-- An imaged prim. -/
structure Rprim where
  type : String
  material : Option PrimPath
  /-- What the consumer has been told is stale, and has not taken yet. -/
  dirty : DirtyBits := .clean
  points : List Point := []
  /-- The connectivity, once delivered. -/
  topology : Option MeshTopology := none
  /-- How often points have been delivered. -/
  pointsUpdates : Nat := 0
  /-- How often a connectivity has been delivered. -/
  topologyUpdates : Nat := 0
deriving DecidableEq, Repr

namespace Rprim

/-- An rprim with new points, if there are any. -/
def withPoints (r : Rprim) : Option (List Point) → Rprim
  | some points => { r with points, pointsUpdates := r.pointsUpdates + 1 }
  | none => r

/-- An rprim with a new connectivity, if there is one. -/
def withTopology (r : Rprim) : Option MeshTopology → Rprim
  | some topology =>
    { r with topology := some topology, topologyUpdates := r.topologyUpdates + 1 }
  | none => r

/-- The mesh as delivered so far, once it has a connectivity. -/
def mesh? (r : Rprim) : Option MeshBuffers :=
  r.topology.map fun topology => ⟨r.points, topology⟩

end Rprim

/-- The imaged prims by path, and the types of rprim that can be imaged at all. -/
structure RenderIndex where
  supported : List String
  rprims : ExtTreeMap PrimPath Rprim

namespace RenderIndex

/-- An index with nothing imaged yet. -/
def ofSupported (supported : List String) : RenderIndex :=
  ⟨supported, ∅⟩

/-- Whether a type of rprim can be imaged. -/
def supports (ix : RenderIndex) (type : String) : Bool :=
  ix.supported.contains type

/-- Begin an rprim, in place of one at the same path. -/
def insert (ix : RenderIndex) (type : String) (path : PrimPath) (material : Option PrimPath) :
    RenderIndex :=
  { ix with rprims := ix.rprims.insert path { type, material } }

/-- End an rprim. -/
def erase (ix : RenderIndex) (path : PrimPath) : RenderIndex :=
  { ix with rprims := ix.rprims.erase path }

/-- Change an rprim, if it is there. -/
def modify (ix : RenderIndex) (path : PrimPath) (change : Rprim → Rprim) : RenderIndex :=
  { ix with rprims := ix.rprims.modify path change }

theorem rprims_insert (ix : RenderIndex) (type : String) (path q : PrimPath)
    (material : Option PrimPath) :
    (ix.insert type path material).rprims[q]? =
      if path = q then some { type, material } else ix.rprims[q]? := by
  simp [insert, ExtTreeMap.getElem?_insert]

theorem rprims_erase (ix : RenderIndex) (path q : PrimPath) :
    (ix.erase path).rprims[q]? = if path = q then none else ix.rprims[q]? := by
  simp [erase, ExtTreeMap.getElem?_erase]

theorem rprims_modify (ix : RenderIndex) (path q : PrimPath) (change : Rprim → Rprim) :
    (ix.modify path change).rprims[q]? =
      if path = q then ix.rprims[q]?.map change else ix.rprims[q]? := by
  grind [modify]

/-- Tell that some output of an rprim is stale. -/
def markDirty (ix : RenderIndex) (path : PrimPath) (bits : DirtyBits) : RenderIndex :=
  ix.modify path fun r => { r with dirty := r.dirty ∪ bits }

/-- Deliver the material of an rprim. -/
def updateMaterial (ix : RenderIndex) (path : PrimPath) (material : Option PrimPath) :
    RenderIndex :=
  ix.modify path fun r => { r with material }

/-- Deliver the mesh of an rprim, or what of it is new. -/
def updateMesh (ix : RenderIndex) (path : PrimPath) (points : Option (List Point))
    (topology : Option MeshTopology) : RenderIndex :=
  ix.modify path fun r => (r.withPoints points).withTopology topology

/-- Take the dirty bits of an rprim, which is clean from then on. -/
def takeDirty (ix : RenderIndex) (path : PrimPath) : DirtyBits × RenderIndex :=
  ((ix.rprims[path]?.map (·.dirty)).getD .clean, ix.modify path fun r => { r with dirty := .clean })

/-- The mesh of an rprim. -/
def mesh? (ix : RenderIndex) (path : PrimPath) : Option MeshBuffers :=
  ix.rprims[path]?.bind (·.mesh?)

/-- How many rprims there are. -/
def size (ix : RenderIndex) : Nat :=
  ix.rprims.size

/-- One line of a report. -/
def reportLine (path : PrimPath) (r : Rprim) : String :=
  let faces := (r.topology.map (·.faceCount)).getD 0
  s!"  {path.text} [{r.type}] points={r.points.length} faces={faces} dirty={r.dirty.report}\n"

/-- The rprims in order of path, a line each. -/
def report (ix : RenderIndex) : String :=
  s!"=== Render Index ({ix.size} rprims) ===\n" ++
    String.join (ix.rprims.toList.map fun (path, r) => reportLine path r)

end RenderIndex

end CapsuleImaging
