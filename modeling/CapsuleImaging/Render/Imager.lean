import CapsuleImaging.Change.Variability
import CapsuleImaging.Render.DataSource

/-!
# The imager

The imager keeps a render index in step with a stage. It **populates** the prims that have an
adapter, **applies** the events that the stage has logged, moves in **time**, and **syncs**: it
delivers to the index what has become stale since the last time, and nothing else.

What it knows of a prim is in one entry: the adapter, what varies with time, and what is stale.
Every operation goes through single prims one after another, and what is done for a prim touches
its own entry and its own rprim only, besides the caches and the record of questions asked.
-/

namespace CapsuleImaging

open Std

/-- What the imager knows of a populated prim. -/
structure Entry where
  adapter : CapsuleAdapter
  /-- The categories known to vary with time. -/
  varying : DirtyBits
  /-- The categories to be delivered by the next sync. -/
  dirty : DirtyBits
deriving DecidableEq, Repr

/-- The imager with all that it acts on, the stage apart. -/
structure Imager where
  registry : Registry
  entries : ExtTreeMap PrimPath Entry
  time : TimeCode
  index : RenderIndex
  caches : CacheBank
  /-- Every question asked of a stage so far. -/
  asked : List Query

namespace Imager

/-- An imager with nothing populated yet. -/
def ofRegistry (registry : Registry) (supported : List String) : Imager where
  registry
  entries := ∅
  time := .default
  index := .ofSupported supported
  caches := .empty
  asked := []

/-! ## One prim -/

/-- The adapter that images a prim: the one of its type, if the index supports it. -/
def adapterOf? (im : Imager) (stage : Stage) (path : PrimPath) : Option CapsuleAdapter :=
  ((stage.typeOf? path).bind im.registry.adapterFor?).filter fun _ =>
    CapsuleAdapter.isSupportedBy im.index

/-- Begin to image a prim, if it has an adapter. All of it is stale. -/
def populatePrim (im : Imager) (stage : Stage) (path : PrimPath) : Imager :=
  match im.adapterOf? stage path with
  | none => im
  | some adapter =>
    let found := ({} : Variability).trackCapsule stage path
    { im with
      entries := im.entries.insert path ⟨adapter, found.varying, .all⟩
      index := (CapsuleAdapter.populate stage path im.index).markDirty path .all
      asked := im.asked ++ found.asked }

/-- Cease to image a prim. -/
def removePrim (im : Imager) (path : PrimPath) : Imager :=
  if path ∈ im.entries then
    { im with entries := im.entries.erase path, index := im.index.erase path }
  else im

/-- Take in that a property of a prim was edited. The edit may have made a category vary; none
ceases to. -/
def propertyChanged (im : Imager) (stage : Stage) (path : PrimPath) (name : String) : Imager :=
  match im.entries[path]? with
  | none => im
  | some entry =>
    let found := ({ varying := entry.varying } : Variability).trackCapsule stage path
    let bits := DirtyBits.ofCapsuleProperty name
    { im with
      entries := im.entries.insert path
        { entry with varying := found.varying, dirty := entry.dirty ∪ bits }
      index := im.index.markDirty path bits
      asked := im.asked ++ found.asked }

/-- Take in that the time has moved: what varies with it is stale. -/
def touch (im : Imager) (path : PrimPath) : Imager :=
  match im.entries[path]? with
  | none => im
  | some entry =>
    if entry.varying.isEmpty then im
    else
      { im with
        entries := im.entries.insert path { entry with dirty := entry.dirty ∪ entry.varying }
        index := im.index.markDirty path entry.varying }

/-- Deliver what is stale of a prim: points, connectivity and material. Of the other categories
the index has been told, and that is all it is told. -/
def syncPrim (im : Imager) (stage : Stage) (path : PrimPath) : Imager :=
  match im.entries[path]? with
  | none => im
  | some entry =>
    if entry.dirty.isEmpty then im
    else
      let points :=
        if entry.dirty.contains .points then some (entry.adapter.points stage path im.time)
        else none
      let topology :=
        if entry.dirty.contains .topology then some (entry.adapter.topology im.caches).1
        else none
      let meshed := im.index.updateMesh path points topology
      { im with
        entries := im.entries.insert path { entry with dirty := .clean }
        index :=
          if entry.dirty.contains .materialId then
            meshed.updateMaterial path (CapsuleAdapter.material stage path)
          else meshed
        caches :=
          if entry.dirty.contains .topology then (entry.adapter.topology im.caches).2
          else im.caches }

/-! ## What is not touched

**Each of these concerns its own prim only**: what is held for another stays as it is. -/

/-- What is held for one prim: its entry and its rprim. -/
def cell (im : Imager) (path : PrimPath) : Option Entry × Option Rprim :=
  (im.entries[path]?, im.index.rprims[path]?)

section Frame

variable {im : Imager} {stage : Stage} {path q : PrimPath}

theorem cell_populatePrim_of_ne (h : path ≠ q) :
    (im.populatePrim stage path).cell q = im.cell q := by
  unfold populatePrim
  split
  · rfl
  · simp [cell, CapsuleAdapter.populate, RenderIndex.markDirty, RenderIndex.rprims_modify,
      RenderIndex.rprims_insert, ExtTreeMap.getElem?_insert, h]

theorem cell_removePrim_of_ne (h : path ≠ q) : (im.removePrim path).cell q = im.cell q := by
  unfold removePrim
  split
  · simp [cell, RenderIndex.rprims_erase, ExtTreeMap.getElem?_erase, h]
  · rfl

theorem cell_propertyChanged_of_ne (h : path ≠ q) (name : String) :
    (im.propertyChanged stage path name).cell q = im.cell q := by
  unfold propertyChanged
  split
  · rfl
  · simp [cell, RenderIndex.markDirty, RenderIndex.rprims_modify, ExtTreeMap.getElem?_insert, h]

theorem cell_touch_of_ne (h : path ≠ q) : (im.touch path).cell q = im.cell q := by
  unfold touch
  split
  · rfl
  · split
    · rfl
    · simp [cell, RenderIndex.markDirty, RenderIndex.rprims_modify, ExtTreeMap.getElem?_insert, h]

theorem cell_syncPrim_of_ne (h : path ≠ q) : (im.syncPrim stage path).cell q = im.cell q := by
  unfold syncPrim
  split
  · rfl
  · split
    · rfl
    · simp only [cell, ExtTreeMap.getElem?_insert, Std.compare_eq_iff_eq, h, ↓reduceIte]
      split <;>
        simp [RenderIndex.updateMesh, RenderIndex.updateMaterial, RenderIndex.rprims_modify, h]

end Frame

/-! ## All prims -/

/-- **Populate** every prim of a stage that has an adapter, and tell how many have. -/
def populate (im : Imager) (stage : Stage) : Nat × Imager :=
  ((stage.paths.filter fun path => (im.adapterOf? stage path).isSome).length,
    stage.paths.foldl (fun im path => im.populatePrim stage path) im)

/-- Take in one event, against the stage as it is now. A prim that was defined may have another
type than before, so it is imaged anew. -/
def applyEvent (im : Imager) (stage : Stage) : StageEvent → Imager
  | .defined path _ => (im.removePrim path).populatePrim stage path
  | .removed path => im.removePrim path
  | .changed path name => im.propertyChanged stage path name

/-- **Apply** some events in order. -/
def applyEvents (im : Imager) (stage : Stage) (events : List StageEvent) : Imager :=
  events.foldl (fun im event => im.applyEvent stage event) im

/-- **Move to a time.** Nothing happens if it is the present moment. -/
def setTime (im : Imager) (time : TimeCode) : Imager :=
  if time.sameMoment im.time then im
  else im.entries.keys.foldl touch { im with time }

/-- **Deliver** what is stale, and tell of how many prims something was. -/
def sync (im : Imager) (stage : Stage) : Nat × Imager :=
  ((im.entries.toList.filter fun (_, entry) => !entry.dirty.isEmpty).length,
    im.entries.keys.foldl (fun im path => im.syncPrim stage path) im)

end Imager

end CapsuleImaging
