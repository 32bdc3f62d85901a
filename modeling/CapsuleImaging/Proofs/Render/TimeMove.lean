import CapsuleImaging.Proofs.Render.Incremental

/-!
# Moves in time

What a move in time relies on is that a prim whose record is without points has the same parameters
before and after. That holds within one kind of time, and between the default and a number exactly
for prims that are steady (`ShapeParameters.ofPrim_eq_iff`): an attribute that has a default and a
single other sample is not on record, since it is one value at all numbers, and yet the default is
another. For the moves that are covered, a sync delivers the points of the new time
(`points_across_times`).
-/

namespace CapsuleImaging

variable {stage : Stage} {path : PrimPath}

/-- Times that are the same moment give the same points. -/
theorem CapsuleAdapter.points_of_sameMoment (a : CapsuleAdapter) {before after : TimeCode}
    (h : before.sameMoment after) : a.points stage path before = a.points stage path after := by
  refine congrArg ShapeParameters.points (ShapeParameters.ofPrim_congr rfl fun schema _ a _ => ?_)
  rw [Stage.value?, Stage.value?]
  cases stage.authored? path a.name with
  | none => rfl
  | some authored => exact Attribute.resolve_of_sameMoment h authored

namespace Session

/-- **After a covered move, a sync delivers the points of the new time.** The imager may stay at a
time that is the same moment; the points are the same by either. -/
theorem Following.points_of_covered {s : Session} (h : s.Following path) (hpending : s.pending = [])
    {entry : Entry} (hentry : s.imager.entries[path]? = some entry) {time : TimeCode}
    (hcovered : s.stage.Covered path s.imager.time time) :
    (((s.act (.setTime time)).act .sync).imager.index.rprims[path]?).map (·.points) =
      some (entry.adapter.points s.stage path time) := by
  rw [Following, hpending] at h
  let moved := s.imager.setTime time
  have hmoved : moved.Following s.stage [] path := h.setTime fun _ => hcovered
  obtain ⟨-, hdelivered⟩ := hmoved.sync.delivered_eq (Imager.clean_sync _ _ _)
  -- the adapter of the prim is the same as before the move
  have hadapter : (moved.sync s.stage).2.adapterOf? s.stage path = some entry.adapter := by
    have hold : s.imager.adapterOf? s.stage path = some entry.adapter := by
      have hmap : (s.imager.entries[path]?).map (·.adapter) = s.imager.adapterOf? s.stage path :=
        h.adapter rfl
      rw [← hmap, hentry, Option.map_some]
    rw [← hold, Imager.adapterOf?_eq, Imager.adapterOf?_eq, Imager.setting_sync,
      Imager.setting_setTime]
    split <;> rfl
  have hpoints : entry.adapter.points s.stage path (moved.sync s.stage).2.time =
      entry.adapter.points s.stage path time := by
    have hsetting : (moved.sync s.stage).2.setting =
        if time.sameMoment s.imager.time then s.imager.setting
        else { s.imager.setting with time } :=
      Imager.setting_sync.trans (Imager.setting_setTime time)
    by_cases hsame : time.sameMoment s.imager.time
    · rw [if_pos hsame] at hsetting
      have htime : (moved.sync s.stage).2.time = s.imager.time := congrArg Setting.time hsetting
      rw [htime]
      exact (CapsuleAdapter.points_of_sameMoment _ hsame).symm
    · rw [if_neg hsame] at hsetting
      have htime : (moved.sync s.stage).2.time = time := congrArg Setting.time hsetting
      rw [htime]
  rw [Imager.wanted, hadapter, Option.map_some] at hdelivered
  obtain ⟨r, hr, heq⟩ := Option.map_eq_some_iff.1 hdelivered
  refine Option.map_eq_some_iff.2 ⟨r, hr, ?_⟩
  rw [← hpoints]
  exact congrArg Delivered.points heq

/-- **Time moves leave no stale geometry, where they are covered.** Without the points on record,
the parameters at two times are the same exactly if the times are of one kind or the prim is
steady. And an imager whose moves were covered for a prim, with no event pending, has the prim's
points of the new time after the next covered move and a sync. -/
theorem points_across_times :
    (∀ (stage : Stage) (path : PrimPath) (t : Tessellation) (before after : TimeCode),
      ¬ (stage.recorded path).contains .points →
        (ShapeParameters.ofPrim stage path before t = ShapeParameters.ofPrim stage path after t ↔
          before.isDefault = after.isDefault ∨ stage.Steady path)) ∧
    ∀ (registry : Registry) (supported : List String) (caches : CacheBank) (stage : Stage)
      (path : PrimPath) (s : Session),
      Reaches (MovesCovered path) (begin registry supported caches stage) s → s.pending = [] →
      ∀ (entry : Entry) (time : TimeCode),
        s.imager.entries[path]? = some entry → s.stage.Covered path s.imager.time time →
          (((s.act (.setTime time)).act .sync).imager.index.rprims[path]?).map (·.points) =
            some (entry.adapter.points s.stage path time) := by
  refine ⟨fun stage path t before after hrecord => ?_, ?_⟩
  · exact ShapeParameters.ofPrim_eq_iff hrecord before after
  · intro registry supported caches stage path s hrun hpending entry time hentry hcovered
    exact (following_of_reaches hrun).points_of_covered hpending hentry hcovered

/-- A capsule with a height by default and a single sample of its height. -/
def singleSample (height sample : Float) : Stage :=
  [.define ⟨"/c"⟩ "Capsule", .setFallback ⟨"/c"⟩ "height" (.double height),
    .setSample ⟨"/c"⟩ "height" 5 (.double sample)].foldl Stage.edit .empty

/-- An imager that has populated and synced that capsule by default. -/
def singleSampleSynced (height sample : Float) : Session :=
  (begin (.ofAdapter ⟨{}, 0⟩) [meshType] .empty (singleSample height sample)).act .sync

/-- A single sample that repeats the default is no obstacle. -/
theorem points_across_times_repeated :
    ((((singleSampleSynced 3 3).act (.setTime (.at 5))).act .sync).imager.index.rprims[
        PrimPath.mk "/c"]?).map (·.points) =
      some (CapsuleAdapter.points ⟨{}, 0⟩ (singleSampleSynced 3 3).stage ⟨"/c"⟩ (.at 5)) := by
  have hrun : Reaches (MovesCovered ⟨"/c"⟩)
      (begin (.ofAdapter ⟨{}, 0⟩) [meshType] .empty (singleSample 3 3)) (singleSampleSynced 3 3) :=
    .act .start .sync fun _ h => by cases h
  have hcovered := (points_across_times.1 (singleSampleSynced 3 3).stage ⟨"/c"⟩ {} .default (.at 5)
    (by decide +kernel)).1 (by decide +kernel)
  refine points_across_times.2 _ _ _ _ _ _ hrun (by decide +kernel)
    ⟨⟨{}, 0⟩, .clean, .clean⟩ (.at 5) (by decide +kernel) ?_
  exact hcovered.imp_right Or.inr

/-- **A single sample that differs from the default is missed**: it is not on record, the parameters
differ, and after a move to its time and a sync the points are those delivered before. -/
theorem single_sample_missed :
    (singleSample 1 3).isA ⟨"/c"⟩ "Capsule" ∧
      ¬ ((singleSample 1 3).recorded ⟨"/c"⟩).contains .points ∧
      ShapeParameters.ofPrim (singleSample 1 3) ⟨"/c"⟩ .default {} ≠
        ShapeParameters.ofPrim (singleSample 1 3) ⟨"/c"⟩ (.at 5) {} ∧
      (singleSampleSynced 1 3).pending = [] ∧
      ((((singleSampleSynced 1 3).act (.setTime (.at 5))).act .sync).imager.index.rprims[
          PrimPath.mk "/c"]?).map (·.pointsUpdates) = some 1 := by
  decide +kernel

end Session

end CapsuleImaging
