import CapsuleImaging.Proofs.Capsule.Layout
import CapsuleImaging.Proofs.Capsule.Reading
import CapsuleImaging.Proofs.Render.Invariant

/-!
# Every mesh fits

Points and connectivity reach an rprim separately, and later syncs may bring points alone. What
makes them fit all the same is that an entry keeps its adapter for as long as its rprim lives, and
that the first sync of an rprim brings both (`Cell.WellFormed`). Nothing is asked of the stages, of
the events or of their order.
-/

namespace CapsuleImaging

open Std

namespace CapsuleAdapter

/-- How many points there are is settled by the tessellation. -/
theorem length_points (a : CapsuleAdapter) (stage : Stage) (path : PrimPath) (time : TimeCode) :
    (a.points stage path time).length = a.tessellation.grid.pointCount := by
  rw [points, ShapeParameters.length_points, ShapeParameters.tessellation_ofPrim]

/-- **Connectivity and points of one tessellation fit**, whatever they are asked of. -/
theorem validate_topology {a b : CapsuleAdapter} (h : a.tessellation = b.tessellation)
    (caches : CacheBank) (stage : Stage) (path : PrimPath) (time : TimeCode) :
    (a.topology caches).1.validate (b.points stage path time).length = .ok () := by
  rw [b.length_points, ← h, topology, CacheBank.request_fst]
  exact Grid.validate_topology _

end CapsuleAdapter

namespace CapsuleSource

/-- A data source answers as its adapter does. -/
theorem get_topology (src : CapsuleSource) (caches : CacheBank) :
    (src.get caches .topology).1 = some (.topology (src.adapter.topology caches).1) := rfl

theorem get_points (src : CapsuleSource) (caches : CacheBank) :
    (src.get caches .points).1 =
      some (.points (src.adapter.points src.stage src.path src.time)) := rfl

end CapsuleSource

/-- **What is held for a prim makes a mesh that fits, or none yet**: there is no rprim without an
entry, and until the connectivity is delivered, both it and the points are to come. -/
structure Cell.WellFormed (c : Cell) : Prop where
  coupled : c.1 = none → c.2 = none
  mesh : ∀ entry r, c = (some entry, some r) →
    (r.topology = none ∧ entry.dirty.contains .points ∧ entry.dirty.contains .topology) ∨
    (r.topology = some entry.adapter.tessellation.grid.topology ∧
      r.points.length = entry.adapter.tessellation.grid.pointCount)

namespace Cell

variable {σ : Setting} {stage : Stage} {path : PrimPath} {c : Cell}

theorem wellFormed_vacant : vacant.WellFormed where
  coupled _ := rfl
  mesh _ _ h := by cases h

theorem wellFormed_begun (adapter : CapsuleAdapter) : (begun adapter stage path).WellFormed where
  coupled h := by cases h
  mesh entry r h := by
    cases h
    exact Or.inl ⟨rfl, DirtyBits.contains_all DirtyBits.isCategory_points,
      DirtyBits.contains_all DirtyBits.isCategory_topology⟩

theorem WellFormed.populate (h : c.WellFormed) : (c.populate σ stage path).WellFormed := by
  unfold Cell.populate
  cases σ.adapterOf? stage path with
  | none => exact h
  | some adapter => exact wellFormed_begun adapter

theorem WellFormed.remove (h : c.WellFormed) : c.remove.WellFormed := by
  unfold Cell.remove
  split
  · exact wellFormed_vacant
  · exact h

/-- More to deliver does no harm. -/
theorem WellFormed.dirtied {entry : Entry} {r? : Option Rprim}
    (h : WellFormed (some entry, r?)) (varying bits told : DirtyBits) :
    WellFormed (some { entry with varying, dirty := entry.dirty ∪ bits },
      r?.map fun r => { r with dirty := r.dirty ∪ told }) where
  coupled hnone := by cases hnone
  mesh entry' r' hc := by
    cases r? with
    | none => cases hc
    | some r =>
      cases hc
      refine (h.mesh entry r rfl).imp_left fun ⟨hnone, hpoints, htopology⟩ => ⟨hnone, ?_, ?_⟩
      · exact (DirtyBits.contains_union_iff DirtyBits.isCategory_points).2 (Or.inl hpoints)
      · exact (DirtyBits.contains_union_iff DirtyBits.isCategory_topology).2 (Or.inl htopology)

theorem WellFormed.change (h : c.WellFormed) (name : String) :
    (c.change stage path name).WellFormed := by
  obtain ⟨held, r?⟩ := c
  cases held with
  | none => exact h
  | some entry => exact h.dirtied _ _ _

theorem WellFormed.touch (h : c.WellFormed) : c.touch.WellFormed := by
  obtain ⟨held, r?⟩ := c
  cases held with
  | none => exact h
  | some entry => exact h.dirtied entry.varying _ _

/-- A sync brings the connectivity and the points of the entry's adapter, or leaves them. -/
theorem WellFormed.sync (h : c.WellFormed) (time : TimeCode) :
    (c.sync time stage path).WellFormed := by
  obtain ⟨held, r?⟩ := c
  cases held with
  | none => exact h
  | some entry =>
    refine ⟨fun hnone => (by cases hnone), fun entry' r' hc => ?_⟩
    cases r? with
    | none => cases hc
    | some r =>
      cases hc
      have hlength := entry.adapter.length_points stage path time
      obtain ⟨-, hpoints, htopology, -⟩ := entry.deliver_eq stage path time r
      right
      rw [hpoints, htopology]
      rcases h.mesh entry r rfl with ⟨-, hp, ht⟩ | ⟨ht, hp⟩
      · -- the first sync of the rprim brings both
        rw [if_pos ht, if_pos hp]
        exact ⟨rfl, hlength⟩
      · -- what a later sync does not bring is there already
        constructor
        · split
          · rfl
          · exact ht
        · split
          · exact hlength
          · exact hp

/-- **No operation makes a cell ill-formed.** -/
theorem wellFormed_invariant : Invariant WellFormed where
  vacant := wellFormed_vacant
  populate _ _ _ h := h.populate
  remove h := h.remove
  change _ _ name h := h.change name
  touch h := h.touch
  sync time _ _ h := h.sync time

/-- **The mesh of a well-formed cell fits.** -/
theorem WellFormed.validate (h : c.WellFormed) {r : Rprim} (hr : c.2 = some r) {m : MeshBuffers}
    (hm : r.mesh? = some m) : m.validate = .ok () := by
  obtain ⟨held, r?⟩ := c
  cases hr
  cases held with
  | none => cases h.coupled rfl
  | some entry =>
    obtain ⟨topology, htopology, rfl⟩ := Option.map_eq_some_iff.1 hm
    rcases h.mesh entry r rfl with ⟨hnone, -, -⟩ | ⟨hsome, hlength⟩
    · rw [hnone] at htopology
      cases htopology
    · rw [hsome] at htopology
      cases htopology
      rw [MeshBuffers.validate, hlength]
      exact Grid.validate_topology _

end Cell

namespace Imager

variable {registry : Registry} {supported : List String} {caches : CacheBank}

/-- Whatever calls an imager has had, every cell is well-formed. -/
theorem wellFormed_run (operations : List Operation) (path : PrimPath) :
    Cell.WellFormed (((fresh registry supported caches).run operations).cell path) :=
  holds_run Cell.wellFormed_invariant registry supported caches operations path

/-- **Every mesh fits its points.** Whatever calls an imager has had, in whatever order and with
whatever stages, a mesh in its index is valid; and connectivity and points of one tessellation fit
each other, be they asked of adapters or of data sources, for any prims and times. -/
theorem meshes_valid (registry : Registry) (supported : List String) (caches : CacheBank) :
    (∀ (operations : List Operation) (path : PrimPath) (m : MeshBuffers),
      ((fresh registry supported caches).run operations).index.mesh? path = some m →
        m.validate = .ok ()) ∧
    (∀ (a b : CapsuleAdapter), a.tessellation = b.tessellation →
      ∀ (caches : CacheBank) (stage : Stage) (path : PrimPath) (time : TimeCode),
        (a.topology caches).1.validate (b.points stage path time).length = .ok ()) ∧
    ∀ (src other : CapsuleSource), src.adapter.tessellation = other.adapter.tessellation →
      ∀ (caches caches' : CacheBank), ∃ topology points,
        (src.get caches .topology).1 = some (.topology topology) ∧
        topology = (src.adapter.topology caches).1 ∧
        (other.get caches' .points).1 = some (.points points) ∧
        points = other.adapter.points other.stage other.path other.time ∧
        topology.validate points.length = .ok () := by
  refine ⟨fun operations path m hm => ?_, fun a b h => ?_, fun src other h caches caches' => ?_⟩
  · obtain ⟨r, hr, hmesh⟩ := Option.bind_eq_some_iff.1 hm
    exact (wellFormed_run operations path).validate hr hmesh
  · exact CapsuleAdapter.validate_topology h
  · refine ⟨_, _, src.get_topology caches, rfl, other.get_points caches', rfl, ?_⟩
    exact CapsuleAdapter.validate_topology h caches other.stage other.path other.time

/-- A capsule that is synced, told of an edit it was never given, and synced again at a time. -/
def strayCalls : List Operation :=
  [.populate (Stage.empty.define ⟨"/c"⟩ "Capsule"), .sync (Stage.empty.define ⟨"/c"⟩ "Capsule"),
    .apply .empty [.changed ⟨"/c"⟩ "height", .removed ⟨"/d"⟩], .setTime (.at 5), .sync .empty]

theorem meshes_valid_synced :
    ∃ m : MeshBuffers, ((fresh (.ofAdapter ⟨{ sweep := 90 }, 0⟩) [meshType] .empty).run
      strayCalls).index.mesh? ⟨"/c"⟩ = some m ∧ m.validate = .ok () := by
  have hsome : (((fresh (.ofAdapter ⟨{ sweep := 90 }, 0⟩) [meshType] .empty).run
      strayCalls).index.mesh? ⟨"/c"⟩).isSome := by decide +kernel
  obtain ⟨m, hm⟩ := Option.isSome_iff_exists.1 hsome
  exact ⟨m, hm, (meshes_valid _ _ _).1 _ _ m hm⟩

end Imager

end CapsuleImaging
