import CapsuleImaging.Proofs.Capsule.TimeMove
import CapsuleImaging.Proofs.Render.Population

/-!
# An imager that follows a stage

What holds all through a session, of each prim by itself. Once no reset of the prim is pending, its
entry has the adapter that its type asks for, and each output of its rprim is as the stage has it
unless it is **stale**: dirty, or due to be dirtied by an edit that is pending. And every attribute
that may vary is known to, or else an edit of it is pending, since an attribute is asked about again
with every edit (`UpToDate`).

While a reset is pending, nothing need be right; but if the last one is a removal, the prim is gone
(`Follows.gone`), so a stage that is ahead of its events does no harm. A move in time keeps all this
if it is covered.
-/

namespace CapsuleImaging

/-- Whether a category of an entry's output is to be delivered again: it is dirty, or an edit that
will make it so is pending. -/
def Entry.Stale (entry : Entry) (pending : List StageEvent) (path : PrimPath)
    (category : DirtyBits) : Prop :=
  entry.dirty.contains category ∨
    ∃ name, .changed path name ∈ pending ∧ (DirtyBits.ofCapsuleProperty name).contains category

/-- **What is delivered of a prim is right, unless it is stale.** -/
structure UpToDate (stage : Stage) (time : TimeCode) (pending : List StageEvent) (path : PrimPath)
    (entry : Entry) (r : Rprim) : Prop where
  type : r.type = meshType
  points : entry.Stale pending path .points ∨ r.points = entry.adapter.points stage path time
  topology : entry.Stale pending path .topology ∨
    r.topology = some entry.adapter.tessellation.grid.topology
  material : entry.Stale pending path .materialId ∨
    r.material = CapsuleAdapter.material stage path
  /-- What may vary is known to, or will be. -/
  varying : ∀ schema, CapsuleSchema.of? stage path = some schema → ∀ a ∈ schema.shapeAttributes,
    stage.mayVary path a.name → .changed path a.name ∈ pending ∨ entry.varying.contains .points

/-- **What is held for a prim follows the stage.** -/
structure Follows (σ : Setting) (stage : Stage) (pending : List StageEvent) (path : PrimPath)
    (c : Cell) : Prop where
  /-- There is an rprim exactly where there is an entry. -/
  coupled : c.2.isSome = c.1.isSome
  gone : StageEvent.lastReset? pending path = some (.removed path) → stage.prims[path]? = none
  adapter : StageEvent.lastReset? pending path = none →
    c.1.map (·.adapter) = σ.adapterOf? stage path
  upToDate : StageEvent.lastReset? pending path = none → ∀ entry r, c = (some entry, some r) →
    UpToDate stage σ.time pending path entry r

section Assigned

variable {σ : Setting} {stage : Stage} {pending : List StageEvent} {path : PrimPath} {c : Cell}

/-- A prim that is followed has its adapter. -/
theorem Follows.assigned (h : Follows σ stage pending path c) :
    Assigned False path σ stage pending c :=
  ⟨h.coupled, h.gone, fun hnone => Or.inl (h.adapter hnone)⟩

/-- And one that has its adapter is followed if what was delivered is right. -/
theorem Assigned.follows (h : Assigned False path σ stage pending c)
    (hupToDate : StageEvent.lastReset? pending path = none → ∀ entry r,
      c = (some entry, some r) → UpToDate stage σ.time pending path entry r) :
    Follows σ stage pending path c :=
  ⟨h.coupled, h.gone, fun hnone => (h.adapter hnone).resolve_right (·.1), hupToDate⟩

end Assigned

section Stale

variable {entry : Entry} {pending later : List StageEvent} {path : PrimPath} {category : DirtyBits}

theorem Entry.Stale.append (h : entry.Stale pending path category) :
    entry.Stale (pending ++ later) path category := by
  rcases h with h | ⟨name, hmem, hname⟩
  · exact Or.inl h
  · exact Or.inr ⟨name, List.mem_append_left _ hmem, hname⟩

/-- An event at another path says nothing of this one. -/
theorem mem_of_path_ne {e : StageEvent} {name : String} (hpath : e.path ≠ path)
    (h : .changed path name ∈ e :: pending) : .changed path name ∈ pending := by
  rcases List.mem_cons.1 h with rfl | h
  · exact absurd rfl hpath
  · exact h

theorem Entry.Stale.of_path_ne {e : StageEvent} (hpath : e.path ≠ path)
    (h : entry.Stale (e :: pending) path category) : entry.Stale pending path category := by
  rcases h with h | ⟨name, hmem, hname⟩
  · exact Or.inl h
  · exact Or.inr ⟨name, mem_of_path_ne hpath hmem, hname⟩

end Stale

/-! ## Edits -/

section Told

variable {s t : Stage} {events : List StageEvent} {path : PrimPath} {time : TimeCode}

theorem Stage.Told.value? (h : Stage.Told s t events) (hquiet : ∀ e ∈ events, ¬ e.Resets path)
    {name : String} (hname : .changed path name ∉ events) :
    t.value? path name time = s.value? path name time :=
  Stage.value?_congr (h.authored path name hquiet hname) time

theorem Stage.Told.mayVary (h : Stage.Told s t events) (hquiet : ∀ e ∈ events, ¬ e.Resets path)
    {name : String} (hname : .changed path name ∉ events) :
    t.mayVary path name = s.mayVary path name := by
  rw [Stage.mayVary, h.authored path name hquiet hname, Stage.mayVary]

theorem Stage.Told.schema (h : Stage.Told s t events) (hquiet : ∀ e ∈ events, ¬ e.Resets path) :
    CapsuleSchema.of? t path = CapsuleSchema.of? s path :=
  CapsuleSchema.of?_congr (h.typeOf? hquiet)

/-- Without an edit of what shapes a capsule, its points stay. -/
theorem Stage.Told.points (h : Stage.Told s t events) (hquiet : ∀ e ∈ events, ¬ e.Resets path)
    (hshape : ∀ a : ShapeAttribute, .changed path a.name ∉ events) (adapter : CapsuleAdapter) :
    adapter.points t path time = adapter.points s path time := by
  refine congrArg ShapeParameters.points (ShapeParameters.ofPrim_congr (h.schema hquiet) ?_)
  intro schema _ a _
  exact h.value? hquiet (hshape a)

theorem Stage.Told.material (h : Stage.Told s t events) (hquiet : ∀ e ∈ events, ¬ e.Resets path)
    (hbinding : .changed path CapsuleAdapter.materialProperty ∉ events) :
    CapsuleAdapter.material t path = CapsuleAdapter.material s path := by
  rw [CapsuleAdapter.material_eq, h.value? hquiet hbinding, CapsuleAdapter.material_eq]

/-- What was right is right after an edit, or an edit that makes it stale is now pending. -/
theorem UpToDate.of_told {pending : List StageEvent} {entry : Entry} {r : Rprim}
    (h : UpToDate s time pending path entry r) (htold : Stage.Told s t events)
    (hquiet : ∀ e ∈ events, ¬ e.Resets path) :
    UpToDate t time (pending ++ events) path entry r where
  type := h.type
  points := by
    by_cases hshape : ∀ a : ShapeAttribute, .changed path a.name ∉ events
    · rw [htold.points hquiet hshape]
      exact h.points.imp_left Entry.Stale.append
    · obtain ⟨a, ha⟩ := not_forall_not.1 hshape
      refine Or.inl (Or.inr ⟨a.name, List.mem_append_right _ ha, ?_⟩)
      rw [DirtyBits.ofCapsuleProperty_name]
      exact DirtyBits.contains_self _
  topology := h.topology.imp_left Entry.Stale.append
  material := by
    by_cases hbinding : .changed path CapsuleAdapter.materialProperty ∈ events
    · exact Or.inl (Or.inr ⟨_, List.mem_append_right _ hbinding, by decide⟩)
    · rw [htold.material hquiet hbinding]
      exact h.material.imp_left Entry.Stale.append
  varying schema hschema a ha hvary := by
    by_cases hedited : .changed path a.name ∈ events
    · exact Or.inl (List.mem_append_right _ hedited)
    · rw [htold.schema hquiet] at hschema
      rw [htold.mayVary hquiet hedited] at hvary
      exact (h.varying schema hschema a ha hvary).imp_left (List.mem_append_left _)

/-- **An edit leaves the imager behind by its own events only.** -/
theorem Follows.of_told {σ : Setting} {pending : List StageEvent} {c : Cell}
    (h : Follows σ s pending path c) (htold : Stage.Told s t events) :
    Follows σ t (pending ++ events) path c := by
  refine (h.assigned.told htold).follows fun hnone entry r hc => ?_
  rw [StageEvent.lastReset?_append, Option.or_eq_none_iff] at hnone
  obtain ⟨hlater, hnone⟩ := hnone
  exact (h.upToDate hnone entry r hc).of_told htold (StageEvent.lastReset?_eq_none.1 hlater)

end Told

/-! ## Operations of the imager -/

section Operations

variable {σ : Setting} {stage : Stage} {pending : List StageEvent} {path : PrimPath} {c : Cell}

/-- The record that is made of a prim knows of everything that may vary. -/
theorem contains_points_of_mayVary {v : Variability} {schema : CapsuleSchema}
    (hschema : CapsuleSchema.of? stage path = some schema) {a : ShapeAttribute}
    (ha : a ∈ schema.shapeAttributes) (hvary : stage.mayVary path a.name) :
    (v.trackCapsule stage path).varying.contains .points :=
  Variability.contains_points_trackCapsule.2 (Or.inr ⟨schema, hschema, a, ha, hvary⟩)

/-- A prim that is begun is stale in every way, and so right. -/
theorem upToDate_begun {adapter : CapsuleAdapter} {time : TimeCode} {entry : Entry} {r : Rprim}
    (hc : Cell.begun adapter stage path = (some entry, some r)) :
    UpToDate stage time pending path entry r := by
  cases hc
  refine ⟨rfl, ?_, ?_, ?_, fun schema hschema a ha hvary => ?_⟩
  · exact Or.inl (Or.inl (DirtyBits.contains_all DirtyBits.isCategory_points))
  · exact Or.inl (Or.inl (DirtyBits.contains_all DirtyBits.isCategory_topology))
  · exact Or.inr rfl
  · exact Or.inr (contains_points_of_mayVary hschema ha hvary)

/-- What is populated is begun, or else left as it is. -/
theorem upToDate_populate
    (h : ∀ entry r, c = (some entry, some r) → UpToDate stage σ.time pending path entry r)
    (entry : Entry) (r : Rprim) (hc : c.populate σ stage path = (some entry, some r)) :
    UpToDate stage σ.time pending path entry r := by
  unfold Cell.populate at hc
  split at hc
  · exact h entry r hc
  · exact upToDate_begun hc

/-- An empty cell holds nothing that could be wrong. -/
theorem upToDate_vacant (entry : Entry) (r : Rprim) (hc : Cell.vacant = (some entry, some r)) :
    UpToDate stage σ.time pending path entry r := by
  cases hc

theorem Follows.populate (h : Follows σ stage pending path c) :
    Follows σ stage pending path (c.populate σ stage path) :=
  h.assigned.populate.follows fun hnone => upToDate_populate (h.upToDate hnone)

/-- What an event about another prim made stale was not this one. -/
theorem UpToDate.of_path_ne {time : TimeCode} {entry : Entry} {r : Rprim} {e : StageEvent}
    (h : UpToDate stage time (e :: pending) path entry r) (hpath : e.path ≠ path) :
    UpToDate stage time pending path entry r where
  type := h.type
  points := h.points.imp_left (Entry.Stale.of_path_ne hpath)
  topology := h.topology.imp_left (Entry.Stale.of_path_ne hpath)
  material := h.material.imp_left (Entry.Stale.of_path_ne hpath)
  varying schema hschema a ha hvary :=
    (h.varying schema hschema a ha hvary).imp_left (mem_of_path_ne hpath)

/-- An event about another prim can be taken off the front. -/
theorem Follows.skip {e : StageEvent} (h : Follows σ stage (e :: pending) path c)
    (hpath : e.path ≠ path) : Follows σ stage pending path c := by
  have hreset : ¬ e.Resets path := fun hr => hpath (StageEvent.path_eq_of_resets hr)
  refine (h.assigned.tail hreset h.coupled rfl).follows fun hnone entry r hc => ?_
  have hquiet := (StageEvent.lastReset?_cons_of_not_resets hreset pending).trans hnone
  exact (h.upToDate hquiet entry r hc).of_path_ne hpath

/-- What was stale by the first edit is dirty once that is taken in. -/
theorem Entry.Stale.taken {entry : Entry} {name : String} {category : DirtyBits}
    (hc : category.IsCategory) (h : entry.Stale (.changed path name :: pending) path category)
    (varying : DirtyBits) :
    Entry.Stale
      { entry with varying, dirty := entry.dirty ∪ DirtyBits.ofCapsuleProperty name }
      pending path category := by
  rcases h with h | ⟨other, hmem, hother⟩
  · exact Or.inl ((DirtyBits.contains_union_iff hc).2 (Or.inl h))
  · rcases List.mem_cons.1 hmem with heq | hmem
    · cases heq
      exact Or.inl ((DirtyBits.contains_union_iff hc).2 (Or.inr hother))
    · exact Or.inr ⟨other, hmem, hother⟩

/-- An edit that is taken in makes dirty what it had made stale. -/
theorem UpToDate.taken {time : TimeCode} {entry : Entry} {r : Rprim} {name : String}
    (h : UpToDate stage time (.changed path name :: pending) path entry r) (told : DirtyBits) :
    UpToDate stage time pending path
      { entry with
        varying := (({ varying := entry.varying } : Variability).trackCapsule stage path).varying
        dirty := entry.dirty ∪ DirtyBits.ofCapsuleProperty name }
      { r with dirty := told } where
  type := h.type
  points := h.points.imp_left fun hs => hs.taken DirtyBits.isCategory_points _
  topology := h.topology.imp_left fun hs => hs.taken DirtyBits.isCategory_topology _
  material := h.material.imp_left fun hs => hs.taken DirtyBits.isCategory_materialId _
  varying _ hschema _ ha hvary := Or.inr (contains_points_of_mayVary hschema ha hvary)

/-- **Taking in the first pending event** of a prim keeps it followed: a reset begins it anew or
ends it, an edit makes dirty what it had made stale. -/
theorem Follows.take {e : StageEvent} (h : Follows σ stage (e :: pending) path c)
    (hpath : e.path = path) : Follows σ stage pending path (c.take σ stage e) := by
  subst hpath
  have hcoupled : c.Coupled := h.coupled
  refine (h.assigned.take rfl).follows fun hnone entry r hc => ?_
  cases e with
  | defined path type =>
    rw [Cell.take, hcoupled.remove_eq] at hc
    exact upToDate_populate upToDate_vacant entry r hc
  | removed path =>
    rw [Cell.take, hcoupled.remove_eq] at hc
    exact upToDate_vacant entry r hc
  | changed path name =>
    have hquiet : StageEvent.lastReset? (.changed path name :: pending) path = none :=
      (StageEvent.lastReset?_cons_of_not_resets StageEvent.resets_changed pending).trans hnone
    obtain ⟨held, r?⟩ := c
    cases held with
    | none => cases hc
    | some before =>
      obtain ⟨delivered, rfl⟩ := Option.isSome_iff_exists.1 h.coupled
      cases hc
      exact (h.upToDate hquiet before delivered rfl).taken _

theorem Entry.Stale.of_subset {entry entry' : Entry} {category : DirtyBits}
    (hdirty : entry.dirty.contains category → entry'.dirty.contains category)
    (h : entry.Stale pending path category) : entry'.Stale pending path category :=
  h.imp_left hdirty

/-- **A covered move in time** makes stale whatever it changes. -/
theorem Follows.touch (h : Follows σ stage pending path c) {time : TimeCode}
    (hcovered : c.1.isSome → stage.Covered path σ.time time) :
    Follows { σ with time } stage pending path c.touch := by
  have hassigned : Assigned False path { σ with time } stage pending c.touch :=
    (Assigned.maintained False path).touch h.assigned fun _ => trivial
  refine hassigned.follows fun hnone entry' r' hc => ?_
  obtain ⟨held, r?⟩ := c
  cases held with
  | none => cases hc
  | some entry =>
    obtain ⟨r, rfl⟩ := Option.isSome_iff_exists.1 h.coupled
    cases hc
    have hentry := h.upToDate hnone entry r rfl
    have hdirty : ∀ category, DirtyBits.IsCategory category → entry.dirty.contains category →
        (entry.dirty ∪ entry.varying).contains category := fun category hcategory hc =>
      (DirtyBits.contains_union_iff hcategory).2 (Or.inl hc)
    refine ⟨hentry.type, ?_, ?_, ?_, hentry.varying⟩
    · rcases hentry.points with hstale | hpoints
      · exact Or.inl (hstale.of_subset (hdirty _ DirtyBits.isCategory_points))
      · by_cases hknown : (stage.recorded path).contains .points
        · -- some attribute varies: this is known, or an edit of it is pending
          obtain ⟨schema, hschema, a, ha, hvary⟩ := ShapeParameters.contains_recorded_iff.1 hknown
          rcases hentry.varying schema hschema a ha hvary with hedited | hvarying
          · refine Or.inl (Or.inr ⟨a.name, hedited, ?_⟩)
            rw [DirtyBits.ofCapsuleProperty_name]
            exact DirtyBits.contains_self _
          · exact Or.inl (Or.inl
              ((DirtyBits.contains_union_iff DirtyBits.isCategory_points).2 (Or.inr hvarying)))
        · refine Or.inr (hpoints.trans ?_)
          exact congrArg ShapeParameters.points
            (ShapeParameters.ofPrim_eq_of_covered (hcovered rfl) hknown)
    · exact hentry.topology.imp_left fun hs => hs.of_subset (hdirty _ DirtyBits.isCategory_topology)
    · exact hentry.material.imp_left fun hs =>
        hs.of_subset (hdirty _ DirtyBits.isCategory_materialId)

/-- What was dirty is right after a sync; the rest is as stale as it was. -/
theorem stale_or_of_deliver {α : Type} {entry : Entry} {category : DirtyBits} {old now : α}
    (h : entry.Stale pending path category ∨ old = now) :
    Entry.Stale { entry with dirty := .clean } pending path category ∨
      (if entry.dirty.contains category then now else old) = now := by
  by_cases hdirty : entry.dirty.contains category
  · exact Or.inr (if_pos hdirty)
  · rw [if_neg hdirty]
    refine h.imp_left fun hstale => ?_
    exact Or.inr (hstale.resolve_left hdirty)

theorem Follows.sync (h : Follows σ stage pending path c) :
    Follows σ stage pending path (c.sync σ.time stage path) := by
  have hassigned := (Assigned.maintained False path).sync h.assigned
  refine hassigned.follows fun hnone entry' r' hc => ?_
  obtain ⟨held, r?⟩ := c
  cases held with
  | none => cases hc
  | some entry =>
    obtain ⟨r, rfl⟩ := Option.isSome_iff_exists.1 h.coupled
    cases hc
    have hentry := h.upToDate hnone entry r rfl
    obtain ⟨htype, hpoints, htopology, hmaterial⟩ := entry.deliver_eq stage path σ.time r
    refine ⟨htype.trans hentry.type, ?_, ?_, ?_, hentry.varying⟩
    · rw [hpoints]
      exact stale_or_of_deliver hentry.points
    · rw [htopology]
      exact stale_or_of_deliver hentry.topology
    · rw [hmaterial]
      exact stale_or_of_deliver hentry.material

/-- **A prim stays followed all through a session**, if the moves in time are covered for it. -/
theorem Follows.maintained (path : PrimPath) :
    Session.Maintained path (fun stage => stage.Covered path)
      fun σ stage pending c => Follows σ stage pending path c where
  told := Follows.of_told
  drain h := by
    obtain ⟨hcoupled, hgone, hadapter, hupToDate⟩ := h
    refine ⟨hcoupled, hgone, hadapter, fun hnone entry r hc => ?_⟩
    obtain ⟨htype, hpoints, htopology, hmaterial, hvarying⟩ := hupToDate hnone entry r hc
    exact ⟨htype, hpoints, htopology, hmaterial, hvarying⟩
  skip := Follows.skip
  take := Follows.take
  populate := Follows.populate
  touch h hcovered := h.touch hcovered
  sync := Follows.sync

end Operations

namespace Imager

/-- Whether what an imager holds for a prim follows a stage. -/
def Following (im : Imager) (stage : Stage) (pending : List StageEvent) (path : PrimPath) : Prop :=
  Follows im.setting stage pending path (im.cell path)

variable {im : Imager} {stage : Stage} {pending : List StageEvent} {path : PrimPath}

/-- With nothing pending, a prim is followed from the moment it is populated. -/
theorem following_populate (h : im.cell path = Cell.vacant) :
    (im.populate stage).2.Following stage [] path := by
  rw [Following, setting_populate, cell_populate, h]
  exact assigned_vacant.populate.follows fun _ => upToDate_populate upToDate_vacant

theorem Following.setTime (h : im.Following stage pending path) {time : TimeCode}
    (hcovered : path ∈ im.entries → stage.Covered path im.time time) :
    (im.setTime time).Following stage pending path :=
  (Follows.maintained path).holds_setTime h hcovered

theorem Following.sync (h : im.Following stage pending path) :
    (im.sync stage).2.Following stage pending path :=
  (Follows.maintained path).holds_sync h

end Imager

/-! ## Sessions -/

namespace Session

variable {s : Session} {path : PrimPath}

/-- Whether a move in time is covered for a prim, or finds it not populated. -/
def MovesCovered (path : PrimPath) (s : Session) (time : TimeCode) : Prop :=
  path ∈ s.imager.entries → s.stage.Covered path s.imager.time time

/-- Whether the imager of a session follows its stage at a prim. -/
def Following (s : Session) (path : PrimPath) : Prop :=
  s.imager.Following s.stage s.pending path

variable {registry : Registry} {supported : List String} {caches : CacheBank} {stage : Stage}

/-- **The imager follows the stage all through a session**, whatever the order of things. -/
theorem following_of_reaches
    (hrun : Reaches (MovesCovered path) (begin registry supported caches stage) s) :
    s.Following path :=
  (Follows.maintained path).reaches (fun _ _ h => h) hrun
    (Imager.following_populate (Imager.cell_fresh path))

/-- The registry and the types that are supported are the same all through a session. -/
theorem setting_of_reaches {moves : Session → TimeCode → Prop}
    (hrun : Reaches moves (begin registry supported caches stage) s) :
    s.imager.setting = ⟨registry, supported, s.imager.time⟩ := by
  have hbegin : (begin registry supported caches stage).imager.setting =
      ⟨registry, supported, .default⟩ := Imager.setting_populate
  rw [hrun.setting, hbegin]

end Session

end CapsuleImaging
