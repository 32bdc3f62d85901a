import CapsuleImaging.Proofs.Render.Following

/-!
# Incremental imaging against imaging from scratch

At the end of a session, with no event pending and a sync just done, nothing is stale, so the index
holds of every prim exactly what the stage as it is now asks for
(`Imager.Following.delivered_eq`): the points and the connectivity by the adapter of its type, and
the material. A fresh imager that is populated from that stage, at that time, comes to the same.
-/

namespace CapsuleImaging

open Std

/-- What has been delivered of a prim, the count of deliveries and the dirty bits apart. -/
structure Delivered where
  type : String
  material : Option PrimPath
  points : List Point
  topology : Option MeshTopology
deriving DecidableEq, Repr

/-- What has been delivered to an rprim. -/
def Rprim.delivered (r : Rprim) : Delivered :=
  ⟨r.type, r.material, r.points, r.topology⟩

/-- **What a stage asks for** of a prim, if anything images it. -/
def Imager.wanted (im : Imager) (stage : Stage) (path : PrimPath) : Option Delivered :=
  (im.adapterOf? stage path).map fun adapter =>
    { type := meshType
      material := CapsuleAdapter.material stage path
      points := adapter.points stage path im.time
      topology := some (adapter.topology im.caches).1 }

/-- Whether every entry of a cell is without dirty bits. -/
def Cell.Clean (c : Cell) : Prop :=
  ∀ entry, c.1 = some entry → entry.dirty = .clean

/-- A sync leaves nothing dirty. -/
theorem Cell.clean_sync (time : TimeCode) (stage : Stage) (path : PrimPath) (c : Cell) :
    (c.sync time stage path).Clean := by
  intro entry hentry
  obtain ⟨held, r?⟩ := c
  cases held with
  | none => cases hentry
  | some before =>
    cases hentry
    rfl

theorem Imager.clean_sync (im : Imager) (stage : Stage) (path : PrimPath) :
    Cell.Clean ((im.sync stage).2.cell path) := by
  rw [cell_sync]
  exact Cell.clean_sync _ _ _ _

/-- With no event pending, a clean entry has nothing stale. -/
theorem Entry.not_stale {entry : Entry} (hclean : entry.dirty = .clean) {path : PrimPath}
    {category : DirtyBits} (hcategory : category.IsCategory) : ¬ entry.Stale [] path category := by
  rintro (hdirty | ⟨name, hmem, -⟩)
  · rw [hclean] at hdirty
    exact DirtyBits.not_contains_clean hcategory hdirty
  · cases hmem

/-- **A prim that is followed, with nothing pending and nothing dirty, is as the stage asks.** -/
theorem Imager.Following.delivered_eq {im : Imager} {stage : Stage} {path : PrimPath}
    (h : im.Following stage [] path) (hclean : Cell.Clean (im.cell path)) :
    (im.entries[path]?).map (·.adapter) = im.adapterOf? stage path ∧
      (im.index.rprims[path]?).map Rprim.delivered = im.wanted stage path := by
  have hadapter : (im.entries[path]?).map (·.adapter) = im.adapterOf? stage path := h.adapter rfl
  refine ⟨hadapter, ?_⟩
  have hcoupled : (im.index.rprims[path]?).isSome = (im.entries[path]?).isSome := h.coupled
  rw [Imager.wanted, ← hadapter]
  cases hentry : im.entries[path]? with
  | none =>
    rw [hentry] at hcoupled
    have hr : im.index.rprims[path]? = none :=
      Option.isNone_iff_eq_none.1 (Option.isSome_eq_false_iff.1 hcoupled)
    rw [hr]
    rfl
  | some entry =>
    rw [hentry] at hcoupled
    obtain ⟨r, hr⟩ := Option.isSome_iff_exists.1 hcoupled
    have hr' := h.upToDate rfl entry r (Prod.ext hentry hr)
    have hnot : ∀ category, DirtyBits.IsCategory category → ¬ entry.Stale [] path category :=
      fun category hcategory => Entry.not_stale (hclean entry hentry) hcategory
    have hpoints := hr'.points.resolve_left (hnot _ DirtyBits.isCategory_points)
    have htopology := hr'.topology.resolve_left (hnot _ DirtyBits.isCategory_topology)
    have hmaterial := hr'.material.resolve_left (hnot _ DirtyBits.isCategory_materialId)
    rw [hr, Option.map_some, Option.map_some, Option.map_some, Rprim.delivered, hr'.type, hpoints,
      htopology, hmaterial, CapsuleAdapter.topology, CacheBank.request_fst]
    rfl

namespace Session

/-- A move in time from number to number, or while no prim is populated. -/
def MovesAmongNumbers (s : Session) (time : TimeCode) : Prop :=
  s.imager.time.isDefault = false ∧ time.isDefault = false ∨ s.imager.entries.isEmpty

theorem MovesAmongNumbers.covered {s : Session} {time : TimeCode} (h : s.MovesAmongNumbers time)
    (path : PrimPath) : MovesCovered path s time := by
  intro hpath
  rcases h with ⟨hbefore, hafter⟩ | hempty
  · exact Or.inl (hbefore.trans hafter.symm)
  · rw [ExtTreeMap.isEmpty_iff.1 hempty] at hpath
    exact absurd hpath ExtTreeMap.not_mem_empty

/-- **Imaging from scratch**: a fresh imager is moved to a time, populated and synced. -/
def rebuilt (registry : Registry) (supported : List String) (caches : CacheBank) (stage : Stage)
    (time : TimeCode) : Imager :=
  let moved := (Imager.fresh registry supported caches).setTime time
  ((moved.populate stage).2.sync stage).2

variable {registry : Registry} {supported : List String} {caches : CacheBank} {stage : Stage}
  {time : TimeCode} {path : PrimPath}

theorem setting_rebuilt :
    (rebuilt registry supported caches stage time).setting = ⟨registry, supported, time⟩ := by
  rw [rebuilt, Imager.setting_sync, Imager.setting_populate, Imager.setting_setTime]
  cases time with
  | default => rfl
  | «at» x => rfl

/-- Imaging from scratch gives what the stage asks for. -/
theorem delivered_rebuilt (registry : Registry) (supported : List String) (caches : CacheBank)
    (stage : Stage) (time : TimeCode) (path : PrimPath) :
    ((rebuilt registry supported caches stage time).entries[path]?).map (·.adapter) =
        (rebuilt registry supported caches stage time).adapterOf? stage path ∧
      ((rebuilt registry supported caches stage time).index.rprims[path]?).map Rprim.delivered =
        (rebuilt registry supported caches stage time).wanted stage path := by
  let moved := (Imager.fresh registry supported caches).setTime time
  have hmoved : moved.cell path = Cell.vacant := by
    rw [Imager.cell_setTime, Imager.cell_fresh]
    split <;> rfl
  exact (Imager.following_populate hmoved).sync.delivered_eq (Imager.clean_sync _ _ _)

/-- **Incremental imaging equals imaging from scratch.** However a session has gone, if its moves in
time were from number to number or with nothing populated, then once nothing is pending a sync
leaves of every prim what the stage asks for, which is what a fresh imager delivers. -/
theorem incremental_eq_rebuilt {s : Session}
    (hrun : Reaches MovesAmongNumbers (begin registry supported caches stage) s)
    (hpending : s.pending = []) (others : CacheBank) (path : PrimPath) :
    let t := s.act .sync
    let scratch := rebuilt registry supported others t.stage t.imager.time
    (t.imager.entries[path]?).map (·.adapter) = t.imager.adapterOf? t.stage path ∧
      (t.imager.index.rprims[path]?).map Rprim.delivered = t.imager.wanted t.stage path ∧
      (t.imager.entries[path]?).map (·.adapter) = (scratch.entries[path]?).map (·.adapter) ∧
      (t.imager.index.rprims[path]?).map Rprim.delivered =
        (scratch.index.rprims[path]?).map Rprim.delivered := by
  intro t scratch
  have hreach : Reaches (MovesCovered path) (begin registry supported caches stage) t :=
    .act (hrun.mono fun _ _ h => h.covered path) .sync fun _ h => by cases h
  have hfollows : t.imager.Following t.stage [] path := by
    have h := following_of_reaches hreach
    rwa [Following, show t.pending = [] from hpending] at h
  obtain ⟨hadapter, hdelivered⟩ := hfollows.delivered_eq (Imager.clean_sync _ _ _)
  obtain ⟨hadapter', hdelivered'⟩ :=
    delivered_rebuilt registry supported others t.stage t.imager.time path
  -- both imagers have the same setting, and what is wanted depends on nothing else
  have hsetting : t.imager.setting = scratch.setting := by
    rw [setting_of_reaches hreach, setting_rebuilt]
  have hsame : t.imager.adapterOf? t.stage path = scratch.adapterOf? t.stage path := by
    rw [Imager.adapterOf?_eq, hsetting, ← Imager.adapterOf?_eq]
  have hwanted : t.imager.wanted t.stage path = scratch.wanted t.stage path := by
    have htime : t.imager.time = scratch.time := congrArg Setting.time hsetting
    simp only [Imager.wanted, hsame, htime, CapsuleAdapter.topology, CacheBank.request_fst]
  exact ⟨hadapter, hdelivered, hadapter.trans (hsame.trans hadapter'.symm),
    hdelivered.trans (hwanted.trans hdelivered'.symm)⟩

/-- Two adapters, each for its own type. -/
def twoAdapters : Registry :=
  ((Registry.empty.register "Capsule" ⟨{ radial := 3 }, 0⟩).2.register "Capsule_1" ⟨{}, 1⟩).2

/-- A capsule that is given samples, seen at two times, and given the other type and a radius
in one batch. -/
def retyped : Session :=
  [.setTime (.at 0), .edit (.define ⟨"/c"⟩ "Capsule"), .deliver,
    .edit (.setSample ⟨"/c"⟩ "height" 0 (.double 1)),
    .edit (.setSample ⟨"/c"⟩ "height" 10 (.double 3)), .sync, .deliver, .setTime (.at 5), .sync,
    .edit (.define ⟨"/c"⟩ "Capsule_1"), .edit (.setFallback ⟨"/c"⟩ "radiusTop" (.double 2)),
    .deliver].foldl act (begin twoAdapters [meshType] .empty .empty)

theorem incremental_eq_rebuilt_retyped :
    retyped.pending = [] ∧
      ((retyped.act .sync).imager.index.mesh? ⟨"/c"⟩).isSome ∧
      ((retyped.act .sync).imager.index.rprims[PrimPath.mk "/c"]?).map Rprim.delivered =
        ((rebuilt twoAdapters [meshType] .empty (retyped.act .sync).stage
          (retyped.act .sync).imager.time).index.rprims[PrimPath.mk "/c"]?).map
            Rprim.delivered := by
  have hrun : Reaches MovesAmongNumbers (begin twoAdapters [meshType] .empty .empty) retyped := by
    simp only [retyped, List.foldl_cons, List.foldl_nil]
    refine .act (.act (.act (.act (.act (.act (.act (.act (.act (.act (.act (.act .start
      _ ?_) _ ?_) _ ?_) _ ?_) _ ?_) _ ?_) _ ?_) _ ?_) _ ?_) _ ?_) _ ?_) _ ?_ <;>
        intro time h <;> cases h
    · exact Or.inr (by decide +kernel)
    · exact Or.inl ⟨by decide +kernel, rfl⟩
  have hpending : retyped.pending = [] := by decide +kernel
  exact ⟨hpending, by decide +kernel,
    (incremental_eq_rebuilt hrun hpending .empty ⟨"/c"⟩).2.2.2⟩

end Session

end CapsuleImaging
