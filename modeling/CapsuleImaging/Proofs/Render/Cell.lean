import CapsuleImaging.Proofs.Change.Tracking
import CapsuleImaging.Render.Imager

/-!
# The imager, prim by prim

What the imager holds for a prim is its **cell**: the entry and the rprim. Every operation acts on
each cell by itself, knowing besides only the **setting**: the registry, the types of rprim that the
index supports, and the time. So each operation is a function of one cell (`Cell.populate`,
`Cell.take`, `Cell.touch`, `Cell.sync`), and the operation on the imager is that function at every
path (`cell_populate`, `cell_applyEvent`, `cell_setTime`, `cell_sync`). The caches and the record
of questions do not occur: what a cache answers depends on the grid alone.
-/

namespace CapsuleImaging

open Std

/-- What the imager knows besides the prim at hand. -/
structure Setting where
  registry : Registry
  supported : List String
  time : TimeCode

/-- The adapter that images a prim. -/
def Setting.adapterOf? (σ : Setting) (stage : Stage) (path : PrimPath) : Option CapsuleAdapter :=
  ((stage.typeOf? path).bind σ.registry.adapterFor?).filter fun _ => σ.supported.contains meshType

/-- What is held for one prim. -/
abbrev Cell := Option Entry × Option Rprim

/-- What an entry has a sync deliver to its rprim. -/
def Entry.deliver (entry : Entry) (stage : Stage) (path : PrimPath) (time : TimeCode)
    (r : Rprim) : Rprim :=
  let points :=
    if entry.dirty.contains .points then some (entry.adapter.points stage path time) else none
  let topology :=
    if entry.dirty.contains .topology then some entry.adapter.tessellation.grid.topology else none
  let meshed := (r.withPoints points).withTopology topology
  if entry.dirty.contains .materialId then
    { meshed with material := CapsuleAdapter.material stage path }
  else meshed

section Deliver

variable (entry : Entry) (stage : Stage) (path : PrimPath) (time : TimeCode) (r : Rprim)

/-- **What a sync leaves of an rprim**: an output is delivered once more if it is stale, and else is
as before. -/
theorem Entry.deliver_eq_outputs :
    entry.deliver stage path time r =
      { r with
        points :=
          if entry.dirty.contains .points then entry.adapter.points stage path time else r.points
        pointsUpdates := r.pointsUpdates + if entry.dirty.contains .points then 1 else 0
        topology :=
          if entry.dirty.contains .topology then some entry.adapter.tessellation.grid.topology
          else r.topology
        topologyUpdates := r.topologyUpdates + if entry.dirty.contains .topology then 1 else 0
        material :=
          if entry.dirty.contains .materialId then CapsuleAdapter.material stage path
          else r.material } := by
  unfold deliver
  by_cases hp : entry.dirty.contains .points <;> by_cases ht : entry.dirty.contains .topology <;>
    by_cases hm : entry.dirty.contains .materialId <;>
      simp [hp, ht, hm, Rprim.withPoints, Rprim.withTopology]

/-- What a sync leaves of an rprim, output by output. -/
theorem Entry.deliver_eq :
    (entry.deliver stage path time r).type = r.type ∧
    (entry.deliver stage path time r).points =
      (if entry.dirty.contains .points then entry.adapter.points stage path time else r.points) ∧
    (entry.deliver stage path time r).topology =
      (if entry.dirty.contains .topology then some entry.adapter.tessellation.grid.topology
        else r.topology) ∧
    (entry.deliver stage path time r).material =
      (if entry.dirty.contains .materialId then CapsuleAdapter.material stage path
        else r.material) := by
  rw [deliver_eq_outputs]
  exact ⟨rfl, rfl, rfl, rfl⟩

/-- A delivery tells the consumer of nothing. -/
theorem Entry.dirty_deliver : (entry.deliver stage path time r).dirty = r.dirty := by
  rw [deliver_eq_outputs]

end Deliver

namespace Cell

/-- A cell without a prim. -/
def vacant : Cell := (none, none)

/-- The cell of a prim that an adapter begins to image. -/
def begun (adapter : CapsuleAdapter) (stage : Stage) (path : PrimPath) : Cell :=
  (some ⟨adapter, (({} : Variability).trackCapsule stage path).varying, .all⟩,
    some
      { type := meshType
        material := CapsuleAdapter.material stage path
        dirty := .clean ∪ .all })

/-- Begin to image a prim, if it has an adapter. -/
def populate (σ : Setting) (stage : Stage) (path : PrimPath) (c : Cell) : Cell :=
  match σ.adapterOf? stage path with
  | none => c
  | some adapter => begun adapter stage path

/-- Cease to image a prim. -/
def remove (c : Cell) : Cell :=
  if c.1.isSome then vacant else c

/-- Take in that a property was edited. -/
def change (stage : Stage) (path : PrimPath) (name : String) (c : Cell) : Cell :=
  match c.1 with
  | none => c
  | some entry =>
    let bits := DirtyBits.ofCapsuleProperty name
    (some
      { entry with
        varying := (({ varying := entry.varying } : Variability).trackCapsule stage path).varying
        dirty := entry.dirty ∪ bits },
      c.2.map fun r => { r with dirty := r.dirty ∪ bits })

/-- Take in an event. -/
def take (σ : Setting) (stage : Stage) (event : StageEvent) (c : Cell) : Cell :=
  match event with
  | .defined path _ => c.remove.populate σ stage path
  | .removed _ => c.remove
  | .changed path name => c.change stage path name

/-- Take in that the time has moved. -/
def touch (c : Cell) : Cell :=
  match c.1 with
  | none => c
  | some entry =>
    (some { entry with dirty := entry.dirty ∪ entry.varying },
      c.2.map fun r => { r with dirty := r.dirty ∪ entry.varying })

/-- Deliver what is stale. -/
def sync (time : TimeCode) (stage : Stage) (path : PrimPath) (c : Cell) : Cell :=
  match c.1 with
  | none => c
  | some entry =>
    (some { entry with dirty := .clean }, c.2.map (entry.deliver stage path time))

end Cell

namespace Imager

variable {im : Imager} {stage : Stage} {path q : PrimPath}

/-- What the imager knows besides its prims. -/
def setting (im : Imager) : Setting :=
  ⟨im.registry, im.index.supported, im.time⟩

theorem adapterOf?_eq : im.adapterOf? stage path = im.setting.adapterOf? stage path := rfl

/-! ## One prim -/

/-- **A step that acts on the cell at its path**, by a function of that cell and the setting. -/
structure ActsBy (step : Imager → PrimPath → Imager) (act : Setting → PrimPath → Cell → Cell) :
    Prop where
  setting : ∀ im path, (step im path).setting = im.setting
  own : ∀ im path, (step im path).cell path = act im.setting path (im.cell path)
  other : ∀ im path q, path ≠ q → (step im path).cell q = im.cell q

theorem actsBy_populatePrim (stage : Stage) :
    ActsBy (fun im path => im.populatePrim stage path) fun σ path c => c.populate σ stage path where
  setting im path := by
    unfold populatePrim
    split <;> rfl
  own im path := by
    unfold populatePrim Cell.populate
    rw [adapterOf?_eq]
    cases im.setting.adapterOf? stage path with
    | none => rfl
    | some adapter =>
      simp only [cell, Cell.begun, CapsuleAdapter.populate, RenderIndex.markDirty,
        RenderIndex.rprims_modify, RenderIndex.rprims_insert, ExtTreeMap.getElem?_insert_self,
        if_pos, Option.map_some]
  other _ _ _ h := cell_populatePrim_of_ne h

theorem actsBy_removePrim : ActsBy removePrim fun _ _ c => c.remove where
  setting im path := by
    unfold removePrim
    split <;> rfl
  own im path := by
    unfold removePrim Cell.remove
    by_cases h : path ∈ im.entries
    · have hsome : im.entries[path]?.isSome := ExtTreeMap.mem_iff_isSome_getElem?.1 h
      simp only [cell, if_pos h, hsome, RenderIndex.rprims_erase, ExtTreeMap.getElem?_erase_self,
        if_pos, Cell.vacant]
    · have hnone : im.entries[path]? = none := ExtTreeMap.getElem?_eq_none h
      simp only [cell, if_neg h, hnone, Option.isSome_none, Bool.false_eq_true, if_false]
  other _ _ _ h := cell_removePrim_of_ne h

theorem actsBy_propertyChanged (stage : Stage) (name : String) :
    ActsBy (fun im path => im.propertyChanged stage path name)
      fun _ path c => c.change stage path name where
  setting im path := by
    unfold propertyChanged
    split <;> rfl
  own im path := by
    unfold propertyChanged Cell.change
    cases h : im.entries[path]? with
    | none => simp only [cell, h]
    | some entry =>
      simp only [cell, h, RenderIndex.markDirty, RenderIndex.rprims_modify,
        ExtTreeMap.getElem?_insert_self, if_pos]
  other _ _ _ h := cell_propertyChanged_of_ne h name

theorem actsBy_touch : ActsBy touch fun _ _ c => c.touch where
  setting im path := by
    unfold touch
    split
    · rfl
    · split <;> rfl
  own im path := by
    unfold touch Cell.touch
    cases h : im.entries[path]? with
    | none => simp only [cell, h]
    | some entry =>
      dsimp only
      split
      -- nothing varies, so the bits would not change
      · next hempty =>
        simp only [cell, h, DirtyBits.union_of_isEmpty hempty, Option.map_id']
      · simp only [cell, h, RenderIndex.markDirty, RenderIndex.rprims_modify,
          ExtTreeMap.getElem?_insert_self, if_pos]
  other _ _ _ h := cell_touch_of_ne h

/-- An entry with nothing stale has nothing to deliver. -/
theorem deliver_of_isEmpty {entry : Entry} (h : entry.dirty.isEmpty) (time : TimeCode) :
    entry.deliver stage path time = id := by
  funext r
  have hnot : ∀ c : DirtyBits, c.IsCategory → ¬ entry.dirty.contains c := by
    intro c hc
    rw [DirtyBits.eq_clean_of_isEmpty h]
    exact DirtyBits.not_contains_clean hc
  simp only [Entry.deliver, if_neg (hnot _ DirtyBits.isCategory_points),
    if_neg (hnot _ DirtyBits.isCategory_topology), if_neg (hnot _ DirtyBits.isCategory_materialId)]
  rfl

theorem actsBy_syncPrim (stage : Stage) :
    ActsBy (fun im path => im.syncPrim stage path) fun σ path c => c.sync σ.time stage path where
  setting im path := by
    unfold syncPrim
    split
    · rfl
    · split
      · rfl
      · simp only [setting]
        split <;> rfl
  own im path := by
    unfold syncPrim Cell.sync
    cases h : im.entries[path]? with
    | none => simp only [cell, h]
    | some entry =>
      dsimp only
      split
      · next hempty =>
        simp only [cell, h, deliver_of_isEmpty hempty, Option.map_id_fun, id_eq,
          ← DirtyBits.eq_clean_of_isEmpty hempty]
      · simp only [cell, h, ExtTreeMap.getElem?_insert_self, CapsuleAdapter.topology,
          CacheBank.request_fst]
        by_cases hmaterial : entry.dirty.contains .materialId
        · simp only [if_pos hmaterial, RenderIndex.updateMaterial, RenderIndex.updateMesh,
            RenderIndex.rprims_modify, if_pos, Option.map_map]
          congr 2
          funext r
          simp only [Function.comp_apply, Entry.deliver, if_pos hmaterial, setting]
        · simp only [if_neg hmaterial, RenderIndex.updateMesh, RenderIndex.rprims_modify, if_pos]
          congr 2
          funext r
          simp only [Entry.deliver, if_neg hmaterial, setting]
  other _ _ _ h := cell_syncPrim_of_ne h

/-! ## All prims -/

namespace ActsBy

variable {step : Imager → PrimPath → Imager} {act : Setting → PrimPath → Cell → Cell}

theorem setting_foldl (h : ActsBy step act) (paths : List PrimPath) (im : Imager) :
    (paths.foldl step im).setting = im.setting := by
  induction paths generalizing im with
  | nil => rfl
  | cons path rest ih => rw [List.foldl_cons, ih, h.setting]

/-- **Steps at different paths do not meet**: each cell is as its own step alone leaves it. -/
theorem cell_foldl (h : ActsBy step act) {paths : List PrimPath} (hnodup : paths.Nodup)
    (im : Imager) (q : PrimPath) :
    (paths.foldl step im).cell q =
      if q ∈ paths then act im.setting q (im.cell q) else im.cell q := by
  induction paths generalizing im with
  | nil => rfl
  | cons path rest ih =>
    obtain ⟨hnew, hrest⟩ := List.nodup_cons.1 hnodup
    rw [List.foldl_cons, ih hrest, h.setting]
    by_cases hq : path = q
    · subst hq
      rw [if_neg hnew, if_pos List.mem_cons_self, h.own]
    · simp only [h.other im path q hq, List.mem_cons, Ne.symm hq, false_or]

end ActsBy

theorem adapterOf?_of_absent (σ : Setting) (h : stage.prims[q]? = none) :
    σ.adapterOf? stage q = none := by
  rw [Setting.adapterOf?, Stage.typeOf?, h]
  rfl

/-- An operation on populated prims leaves the cell of any other as it is. -/
theorem entry_eq_none_of_notMem_keys (h : q ∉ im.entries.keys) : (im.cell q).1 = none :=
  ExtTreeMap.getElem?_eq_none fun hmem => h (ExtTreeMap.mem_keys.2 hmem)

theorem setting_populate : (im.populate stage).2.setting = im.setting :=
  (actsBy_populatePrim stage).setting_foldl stage.paths im

theorem cell_populate :
    (im.populate stage).2.cell q = Cell.populate im.setting stage q (im.cell q) := by
  have hfold := (actsBy_populatePrim stage).cell_foldl stage.prims.nodup_keys im q
  refine hfold.trans ?_
  by_cases hq : q ∈ stage.prims.keys
  · rw [if_pos hq]
  · have habsent : stage.prims[q]? = none :=
      ExtTreeMap.getElem?_eq_none fun hmem => hq (ExtTreeMap.mem_keys.2 hmem)
    rw [if_neg hq, Cell.populate, adapterOf?_of_absent _ habsent]

theorem setting_applyEvent (event : StageEvent) :
    (im.applyEvent stage event).setting = im.setting := by
  cases event with
  | defined path type =>
    exact ((actsBy_populatePrim stage).setting _ path).trans (actsBy_removePrim.setting im path)
  | removed path => exact actsBy_removePrim.setting im path
  | changed path name => exact (actsBy_propertyChanged stage name).setting im path

theorem cell_applyEvent (event : StageEvent) :
    (im.applyEvent stage event).cell q =
      if event.path = q then Cell.take im.setting stage event (im.cell q) else im.cell q := by
  split
  · next h =>
    subst h
    cases event with
    | defined path type =>
      refine ((actsBy_populatePrim stage).own _ path).trans ?_
      rw [actsBy_removePrim.setting, actsBy_removePrim.own]
      rfl
    | removed path => exact actsBy_removePrim.own im path
    | changed path name => exact (actsBy_propertyChanged stage name).own im path
  · next h =>
    cases event with
    | defined path type =>
      exact (cell_populatePrim_of_ne h).trans (cell_removePrim_of_ne h)
    | removed path => exact cell_removePrim_of_ne h
    | changed path name => exact cell_propertyChanged_of_ne h name

theorem setting_setTime (time : TimeCode) :
    (im.setTime time).setting =
      if time.sameMoment im.time then im.setting else { im.setting with time } := by
  unfold setTime
  split
  · rfl
  · exact actsBy_touch.setting_foldl im.entries.keys { im with time }

theorem cell_setTime (time : TimeCode) :
    (im.setTime time).cell q =
      if time.sameMoment im.time then im.cell q else Cell.touch (im.cell q) := by
  unfold setTime
  split
  · rfl
  · refine (actsBy_touch.cell_foldl im.entries.nodup_keys { im with time } q).trans ?_
    by_cases hq : q ∈ im.entries.keys
    · rw [if_pos hq]
      rfl
    · rw [if_neg hq, Cell.touch, entry_eq_none_of_notMem_keys hq]
      rfl

theorem setting_sync : (im.sync stage).2.setting = im.setting :=
  (actsBy_syncPrim stage).setting_foldl im.entries.keys im

theorem cell_sync : (im.sync stage).2.cell q = Cell.sync im.time stage q (im.cell q) := by
  refine ((actsBy_syncPrim stage).cell_foldl im.entries.nodup_keys im q).trans ?_
  by_cases hq : q ∈ im.entries.keys
  · rw [if_pos hq]
    rfl
  · rw [if_neg hq, Cell.sync, entry_eq_none_of_notMem_keys hq]

theorem cell_removePrim :
    (im.removePrim path).cell q = if path = q then Cell.remove (im.cell q) else im.cell q := by
  split
  · next h =>
    subst h
    exact actsBy_removePrim.own im path
  · next h => exact cell_removePrim_of_ne h

end Imager

end CapsuleImaging
