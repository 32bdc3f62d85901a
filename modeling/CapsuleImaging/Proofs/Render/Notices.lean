import CapsuleImaging.Proofs.Render.Population
import CapsuleImaging.Proofs.Scene.History

/-!
# What is stale, kept twice

The imager keeps in each entry what the next sync is to deliver, and the index keeps in each rprim
what its consumer has been told of and has not taken. A sync clears the one, and a consumer who
takes its notices the other. If the consumer takes the notices of all prims at each sync and at no
other time (`Imager.Attended`), the two are the same between any two calls
(`Imager.agreed_of_attended`), though they are written at different places and a prim may begin anew
while it is populated. Then what is taken at a sync, before it or after (`Imager.heardSync_fst`), is
what the sync delivers or acknowledges.
-/

namespace CapsuleImaging

open Std

/-! ## Notices of a single prim -/

/-- An rprim whose notices have been taken. -/
def Rprim.heard (r : Rprim) : Rprim :=
  { r with dirty := .clean }

/-- It does not matter to a delivery when the notices are taken. -/
theorem Entry.deliver_heard (entry : Entry) (stage : Stage) (path : PrimPath) (time : TimeCode)
    (r : Rprim) :
    entry.deliver stage path time r.heard = (entry.deliver stage path time r).heard := by
  simp only [deliver_eq_outputs, Rprim.heard]

namespace Cell

/-- A cell whose notices have been taken. -/
def heard (c : Cell) : Cell :=
  (c.1, c.2.map Rprim.heard)

/-- What is to be delivered is what the consumer has been told of. -/
def Agreed (c : Cell) : Prop :=
  c.1.map (·.dirty) = c.2.map (·.dirty)

variable {c : Cell}

theorem agreed_iff : c.Agreed ↔
    c = vacant ∨ ∃ entry r, c = (some entry, some r) ∧ entry.dirty = r.dirty := by
  obtain ⟨_ | entry, _ | r⟩ := c
  · simp [Agreed, vacant]
  · simp [Agreed, vacant]
  · simp [Agreed, vacant]
  · constructor
    · exact fun h => Or.inr ⟨entry, r, rfl, Option.some.inj h⟩
    · rintro (h | ⟨_, _, h, heq⟩)
      · cases h
      · cases h
        exact congrArg some heq

theorem agreed_vacant : vacant.Agreed := rfl

/-- **Both are written alike**, except by a sync. -/
theorem agreed_steady : Steady Agreed where
  populate σ stage path h := by
    unfold populate
    split
    · exact h
    · -- an rprim that begins is clean, but the notice of everything follows
      rfl
  remove h := by
    unfold remove
    split
    · exact agreed_vacant
    · exact h
  change stage path name h := by
    rcases agreed_iff.1 h with rfl | ⟨entry, r, rfl, heq⟩
    · exact agreed_vacant
    · simp [change, Agreed, heq]
  touch h := by
    rcases agreed_iff.1 h with rfl | ⟨entry, r, rfl, heq⟩
    · exact agreed_vacant
    · simp [touch, Agreed, heq]

theorem sync_heard (time : TimeCode) (stage : Stage) (path : PrimPath) :
    c.heard.sync time stage path = (c.sync time stage path).heard := by
  obtain ⟨_ | entry, r?⟩ := c
  · rfl
  · cases r? with
    | none => rfl
    | some r => simp [heard, sync, Entry.deliver_heard]

/-- A sync tells the consumer of nothing. -/
theorem dirty_sync (time : TimeCode) (stage : Stage) (path : PrimPath) :
    (c.sync time stage path).2.map (·.dirty) = c.2.map (·.dirty) := by
  unfold sync
  split
  · rfl
  · rw [Option.map_map]
    exact Option.map_congr fun r _ => Entry.dirty_deliver _ _ _ _ r

theorem heard_heard : c.heard.heard = c.heard := by
  simp only [heard, Option.map_map]
  rfl

/-- **A sync whose notices are taken** leaves both clean. -/
theorem Agreed.heard_sync (h : c.Agreed) (time : TimeCode) (stage : Stage) (path : PrimPath) :
    (c.sync time stage path).heard.Agreed := by
  rcases agreed_iff.1 h with rfl | ⟨entry, r, rfl, -⟩
  · exact agreed_vacant
  · rfl

end Cell

/-! ## Taking notices -/

namespace RenderIndex

/-- Take the notices of some prims in order. -/
def takeEach (ix : RenderIndex) : List PrimPath → List (PrimPath × DirtyBits) × RenderIndex
  | [] => ([], ix)
  | path :: rest =>
    let (bits, ix) := ix.takeDirty path
    let (taken, ix) := ix.takeEach rest
    ((path, bits) :: taken, ix)

/-- What the consumer has been told of a prim and has not taken. -/
def notice (ix : RenderIndex) (path : PrimPath) : DirtyBits :=
  (ix.takeDirty path).1

variable (ix : RenderIndex)

theorem rprims_takeDirty (path q : PrimPath) :
    (ix.takeDirty path).2.rprims[q]? =
      if path = q then ix.rprims[q]?.map Rprim.heard else ix.rprims[q]? :=
  rprims_modify ix path q Rprim.heard

theorem notice_congr {ix ix' : RenderIndex} {path : PrimPath}
    (h : ix.rprims[path]?.map (·.dirty) = ix'.rprims[path]?.map (·.dirty)) :
    ix.notice path = ix'.notice path := by
  simp only [notice, takeDirty, h]

theorem takeEach_cons (path : PrimPath) (rest : List PrimPath) :
    ix.takeEach (path :: rest) =
      ((path, ix.notice path) :: ((ix.takeDirty path).2.takeEach rest).1,
        ((ix.takeDirty path).2.takeEach rest).2) := rfl

theorem rprims_takeEach (paths : List PrimPath) (q : PrimPath) :
    (ix.takeEach paths).2.rprims[q]? =
      if q ∈ paths then ix.rprims[q]?.map Rprim.heard else ix.rprims[q]? := by
  induction paths generalizing ix with
  | nil => rfl
  | cons path rest ih =>
    rw [takeEach_cons, ih, rprims_takeDirty]
    by_cases hq : path = q
    · -- a second time there is nothing more to take
      subst hq
      cases ix.rprims[path]? <;> simp [Rprim.heard]
    · simp [hq, Ne.symm hq]

/-- **Different prims are told of by themselves.** -/
theorem takeEach_fst {paths : List PrimPath} (hnodup : paths.Nodup) :
    (ix.takeEach paths).1 = paths.map fun path => (path, ix.notice path) := by
  induction paths generalizing ix with
  | nil => rfl
  | cons path rest ih =>
    obtain ⟨hnew, hrest⟩ := List.nodup_cons.1 hnodup
    rw [takeEach_cons, ih _ hrest, List.map_cons]
    refine congrArg _ (List.map_congr_left fun q hq => ?_)
    have hne : path ≠ q := fun heq => hnew (heq ▸ hq)
    have hsame : (ix.takeDirty path).2.notice q = ix.notice q :=
      notice_congr (by rw [rprims_takeDirty, if_neg hne])
    rw [hsame]

end RenderIndex

/-! ## Syncs whose notices are taken -/

namespace Imager

/-- A sync for a consumer who takes the notices of some prims before it and of others after it. It
tells what was taken. -/
def heardSync (im : Imager) (stage : Stage) (early late : List PrimPath) :
    List (PrimPath × DirtyBits) × Imager :=
  let (before, index) := im.index.takeEach early
  let synced := ({ im with index }.sync stage).2
  let (after, index) := synced.index.takeEach late
  (before ++ after, { synced with index })

/-- **Imagers whose consumer attends to them**: it takes the notice of each populated prim once at
each sync, and none at any other time. -/
inductive Attended (registry : Registry) (supported : List String) (caches : CacheBank) :
    Imager → Prop
  | fresh : Attended registry supported caches (.fresh registry supported caches)
  | call {im : Imager} (h : Attended registry supported caches im) (operation : Operation)
    (hsync : ∀ stage, operation ≠ .sync stage) :
    Attended registry supported caches (im.perform operation)
  | sync {im : Imager} (h : Attended registry supported caches im) (stage : Stage)
    {early late : List PrimPath} (hall : (early ++ late).Perm im.entries.keys) :
    Attended registry supported caches (im.heardSync stage early late).2

variable {im : Imager} {stage : Stage} {early late : List PrimPath}

/-- What is held for a prim once some notices are taken. -/
theorem cell_takeEach (im : Imager) (paths : List PrimPath) (q : PrimPath) :
    cell { im with index := (im.index.takeEach paths).2 } q =
      if q ∈ paths then Cell.heard (im.cell q) else im.cell q := by
  simp only [cell, RenderIndex.rprims_takeEach]
  split <;> rfl

/-- **A sync of which all is heard**, prim by prim. -/
theorem cell_heardSync (hall : (early ++ late).Perm im.entries.keys) {q : PrimPath}
    (hq : q ∈ im.entries) :
    (im.heardSync stage early late).2.cell q =
      Cell.heard (Cell.sync im.time stage q (im.cell q)) := by
  have hmem : q ∈ early ∨ q ∈ late :=
    List.mem_append.1 (hall.mem_iff.2 (ExtTreeMap.mem_keys.2 hq))
  refine (cell_takeEach _ late q).trans ?_
  rw [cell_sync, cell_takeEach]
  by_cases hearly : q ∈ early
  · rw [if_pos hearly, Cell.sync_heard, Cell.heard_heard, ite_self]
  · rw [if_neg hearly, if_pos (hmem.resolve_left hearly)]

/-- A prim that is not populated is left alone. -/
theorem cell_heardSync_of_notMem (hall : (early ++ late).Perm im.entries.keys) {q : PrimPath}
    (hq : q ∉ im.entries) : (im.heardSync stage early late).2.cell q = im.cell q := by
  have hmem : q ∉ early ++ late := fun h => hq (ExtTreeMap.mem_keys.1 (hall.mem_iff.1 h))
  obtain ⟨hearly, hlate⟩ := not_or.1 (mt List.mem_append.2 hmem)
  refine (cell_takeEach _ late q).trans ?_
  rw [if_neg hlate, cell_sync, cell_takeEach, if_neg hearly, Cell.sync,
    show (im.cell q).1 = none from ExtTreeMap.getElem?_eq_none hq]

/-- **What is taken at a sync** is what was told by then, whether it is taken before or after. -/
theorem heardSync_fst (hall : (early ++ late).Perm im.entries.keys) :
    (im.heardSync stage early late).1 =
      (early ++ late).map fun path => (path, im.index.notice path) := by
  obtain ⟨hearly, hlate, hapart⟩ := List.nodup_append.1 (hall.nodup_iff.2 im.entries.nodup_keys)
  let heard : Imager := { im with index := (im.index.takeEach early).2 }
  have hnotice : ∀ q ∈ late, (heard.sync stage).2.index.notice q = im.index.notice q := by
    intro q hq
    have hnot : q ∉ early := fun h => hapart q h q hq rfl
    refine RenderIndex.notice_congr ?_
    have hcell : (heard.sync stage).2.cell q = Cell.sync im.time stage q (im.cell q) := by
      rw [cell_sync, cell_takeEach, if_neg hnot]
    exact (congrArg (fun c : Cell => c.2.map (·.dirty)) hcell).trans (Cell.dirty_sync _ _ _)
  have hsplit : (im.heardSync stage early late).1 =
      (im.index.takeEach early).1 ++ ((heard.sync stage).2.index.takeEach late).1 := rfl
  have hlater : (late.map fun path => (path, (heard.sync stage).2.index.notice path)) =
      late.map fun path => (path, im.index.notice path) :=
    List.map_congr_left fun q hq => by rw [hnotice q hq]
  rw [hsplit, RenderIndex.takeEach_fst _ hearly, RenderIndex.takeEach_fst _ hlate, hlater,
    List.map_append]

variable {registry : Registry} {supported : List String} {caches : CacheBank}

/-- **All that is to be delivered has been told**, and nothing else, between any two calls. -/
theorem agreed_of_attended (h : Attended registry supported caches im) (path : PrimPath) :
    Cell.Agreed (im.cell path) := by
  induction h generalizing path with
  | fresh =>
    rw [cell_fresh]
    exact Cell.agreed_vacant
  | call _ operation hsync ih =>
    exact holds_perform_of_steady Cell.agreed_steady ih operation hsync path
  | @sync im _ stage early late hall ih =>
    by_cases hpath : path ∈ im.entries
    · rw [cell_heardSync hall hpath]
      exact (ih path).heard_sync _ _ _
    · rw [cell_heardSync_of_notMem hall hpath]
      exact ih path

/-- A prim that is populated has an rprim, with a notice of what is to be delivered. -/
theorem exists_rprim_of_attended (h : Attended registry supported caches im) {path : PrimPath}
    {entry : Entry} (hentry : im.entries[path]? = some entry) :
    ∃ r, im.index.rprims[path]? = some r ∧ r.dirty = entry.dirty := by
  have hagreed : im.entries[path]?.map (·.dirty) = im.index.rprims[path]?.map (·.dirty) :=
    agreed_of_attended h path
  rw [hentry, Option.map_some] at hagreed
  exact Option.map_eq_some_iff.1 hagreed.symm

/-- **Notices and deliveries never drift.** The consumer of an imager takes the notice of each
populated prim once at each sync, before it or after, and none at any other time. Then between any
two calls, whatever the stage is edited to, a prim that is populated has an rprim, and what is to be
delivered of it is what the consumer has been told and has not taken. So at each sync the consumer
takes the bits of every entry as they are; of each prim exactly the outputs in the bits it took are
delivered, once, and what is left is clean on both sides. -/
theorem notices_agree (h : Attended registry supported caches im) :
    (∀ path : PrimPath,
      im.entries[path]?.map (·.dirty) = im.index.rprims[path]?.map (·.dirty)) ∧
    ∀ (stage : Stage) (early late : List PrimPath), (early ++ late).Perm im.entries.keys →
      let taken := (im.heardSync stage early late).1
      let synced := (im.heardSync stage early late).2
      taken.Perm (im.entries.toList.map fun (path, entry) => (path, entry.dirty)) ∧
      ∀ (path : PrimPath) (entry : Entry), im.entries[path]? = some entry →
        synced.entries[path]? = some { entry with dirty := .clean } ∧
        ∃ r, im.index.rprims[path]? = some r ∧ synced.index.rprims[path]? = some
          { r with
            dirty := .clean
            points :=
              if entry.dirty.contains .points then entry.adapter.points stage path im.time
              else r.points
            pointsUpdates := r.pointsUpdates + if entry.dirty.contains .points then 1 else 0
            topology :=
              if entry.dirty.contains .topology then some entry.adapter.tessellation.grid.topology
              else r.topology
            topologyUpdates :=
              r.topologyUpdates + if entry.dirty.contains .topology then 1 else 0
            material :=
              if entry.dirty.contains .materialId then CapsuleAdapter.material stage path
              else r.material } := by
  refine ⟨agreed_of_attended h, fun stage early late hall => ⟨?_, fun path entry hentry => ?_⟩⟩
  · have hnotice : ∀ x ∈ im.entries.toList, im.index.notice x.1 = x.2.dirty := by
      rintro ⟨path, entry⟩ hmem
      obtain ⟨r, hr, hdirty⟩ :=
        exists_rprim_of_attended h (ExtTreeMap.mem_toList_iff_getElem?_eq_some.1 hmem)
      rw [RenderIndex.notice, RenderIndex.takeDirty, hr, Option.map_some, Option.getD_some, hdirty]
    have htaken := hall.map fun path => (path, im.index.notice path)
    rw [← ExtTreeMap.map_fst_toList_eq_keys, List.map_map] at htaken
    rw [heardSync_fst hall]
    refine htaken.trans (List.Perm.of_eq (List.map_congr_left fun x hx => ?_))
    rw [Function.comp_apply, hnotice x hx]
  · obtain ⟨r, hr, -⟩ := exists_rprim_of_attended h hentry
    have hmem : path ∈ im.entries :=
      ExtTreeMap.mem_iff_isSome_getElem?.2 (Option.isSome_of_eq_some hentry)
    have hcell : im.cell path = (some entry, some r) := Prod.ext hentry hr
    have hsynced : (im.heardSync stage early late).2.cell path =
        (some { entry with dirty := .clean },
          some (entry.deliver stage path im.time r).heard) := by
      rw [cell_heardSync hall hmem, hcell]
      rfl
    rw [Entry.deliver_eq_outputs] at hsynced
    exact ⟨congrArg Prod.fst hsynced, r, hr, congrArg Prod.snd hsynced⟩

/-- Two capsules, one of them of a height that varies with time. -/
def growing : Stage :=
  Stage.empty.editAll [.define ⟨"/a"⟩ "Capsule", .define ⟨"/b"⟩ "Capsule",
    .setSample ⟨"/a"⟩ "height" 1 (.double 1), .setSample ⟨"/a"⟩ "height" 2 (.double 3)]

/-- An imager of both that has been synced and heard, and has since moved in time and been told that
one of them was defined anew. -/
def grown : Imager :=
  ((((fresh Session.oneType [meshType] .empty).perform (.populate growing)).heardSync growing
    [⟨"/b"⟩] [⟨"/a"⟩]).2.perform (.setTime (.at 2))).perform
      (.apply growing [.changed ⟨"/b"⟩ "radius", .defined ⟨"/b"⟩ "Capsule"])

theorem notices_agree_grown :
    Attended Session.oneType [meshType] .empty grown ∧
      (grown.heardSync growing [⟨"/b"⟩] [⟨"/a"⟩]).1.Perm
        [(⟨"/a"⟩, DirtyBits.points), (⟨"/b"⟩, .all)] := by
  have hattended : Attended Session.oneType [meshType] .empty grown :=
    .call (.call (.sync (.call .fresh (.populate growing) (by simp)) growing (by decide +kernel))
      (.setTime (.at 2)) (by simp)) _ (by simp)
  refine ⟨hattended, ?_⟩
  have htaken := ((notices_agree hattended).2 growing [⟨"/b"⟩] [⟨"/a"⟩] (by decide +kernel)).1
  have hbits : (grown.entries.toList.map fun (path, entry) => (path, entry.dirty)) =
      [(⟨"/a"⟩, DirtyBits.points), (⟨"/b"⟩, .all)] := by decide +kernel
  rwa [hbits] at htaken

end Imager

end CapsuleImaging
