import CapsuleImaging.Proofs.Render.Invariant

/-!
# Which prims are populated

There is an rprim exactly where there is an entry, whatever calls an imager has had
(`Cell.Coupled`). Where there is one is settled in a session: once no reset of a prim is pending,
the prim has the adapter that its type asks for (`Assigned`).

Each event is applied against a stage that may be ahead of it, and so may begin or end a prim that
the event does not describe. What has been done wrong is put right by the last reset of the prim.
If that is a definition, the prim is imaged by the type it now has. If it is a removal, the prim is
gone from the stage, so it is rightly not imaged (`Assigned.gone`).
-/

namespace CapsuleImaging

open Std

namespace Cell

/-- There is an rprim exactly where there is an entry. -/
def Coupled (c : Cell) : Prop :=
  c.2.isSome = c.1.isSome

/-- The adapter that images the prim, if any does. -/
def adapter? (c : Cell) : Option CapsuleAdapter :=
  c.1.map (·.adapter)

variable {σ : Setting} {stage : Stage} {path : PrimPath} {c : Cell}

/-- **Entry and rprim come and go together.** -/
theorem coupled_invariant : Invariant Coupled where
  vacant := rfl
  populate σ stage path h := by
    unfold populate
    split
    · exact h
    · rfl
  remove h := by
    unfold remove
    split
    · rfl
    · exact h
  change stage path name h := by
    unfold change
    split
    · exact h
    · next hentry => simpa [Coupled, hentry] using h
  touch h := by
    unfold touch
    split
    · exact h
    · next hentry => simpa [Coupled, hentry] using h
  sync time stage path h := by
    unfold sync
    split
    · exact h
    · next hentry => simpa [Coupled, hentry] using h

/-- Nothing is left of a prim that is no longer imaged. -/
theorem Coupled.remove_eq (h : c.Coupled) : c.remove = vacant := by
  unfold remove
  split
  · rfl
  · next hnone =>
    have hentry : c.1 = none := Option.not_isSome_iff_eq_none.1 hnone
    have hrprim : c.2 = none := by
      rw [← Option.not_isSome_iff_eq_none, h]
      exact hnone
    exact Prod.ext hentry hrprim

/-! What is held may change without another adapter. -/

theorem adapter?_change (name : String) : (c.change stage path name).adapter? = c.adapter? := by
  unfold change
  split
  · rfl
  · next hentry => simp [adapter?, hentry]

theorem adapter?_touch : c.touch.adapter? = c.adapter? := by
  unfold touch
  split
  · rfl
  · next hentry => simp [adapter?, hentry]

theorem adapter?_sync (time : TimeCode) : (c.sync time stage path).adapter? = c.adapter? := by
  unfold sync
  split
  · rfl
  · next hentry => simp [adapter?, hentry]

/-- A prim that is populated has the adapter that its type asks for, or what it had. -/
theorem adapter?_populate :
    (c.populate σ stage path).adapter? = (σ.adapterOf? stage path).or c.adapter? := by
  unfold populate
  split
  · next hnone => rw [hnone, Option.none_or]
  · next adapter hsome => rw [hsome, Option.some_or, adapter?, begun, Option.map_some]

end Cell

/-- **A prim has the adapter that its type asks for**, unless a reset of it is pending. If some
prims may still be missing, it may also have none. -/
structure Assigned (missing : Prop) (path : PrimPath) (σ : Setting) (stage : Stage)
    (pending : List StageEvent) (c : Cell) : Prop where
  coupled : c.Coupled
  /-- A prim whose removal is the last that is told of it is gone. -/
  gone : StageEvent.lastReset? pending path = some (.removed path) → stage.prims[path]? = none
  adapter : StageEvent.lastReset? pending path = none →
    c.adapter? = σ.adapterOf? stage path ∨ missing ∧ c.adapter? = none

/-- With nothing told of a prim, nothing need be held for it, if prims may be missing. -/
theorem assigned_vacant {path : PrimPath} {σ : Setting} {stage : Stage} :
    Assigned True path σ stage [] Cell.vacant where
  coupled := rfl
  gone h := by cases h
  adapter _ := Or.inr ⟨trivial, rfl⟩

namespace Assigned

variable {missing : Prop} {σ : Setting} {s t stage : Stage} {events pending : List StageEvent}
  {event : StageEvent} {path : PrimPath} {c : Cell}

/-- A new reset is the last one, and without one the prim is as before. -/
theorem told (h : Assigned missing path σ s pending c) (htold : Stage.Told s t events) :
    Assigned missing path σ t (pending ++ events) c := by
  have happend := StageEvent.lastReset?_append pending events path
  cases hlast : StageEvent.lastReset? events path with
  | some e =>
    rw [hlast, Option.some_or] at happend
    refine ⟨h.coupled, fun hgone => ?_, fun hnone => ?_⟩
    · rw [happend] at hgone
      cases hgone
      exact htold.gone path (StageEvent.mem_of_lastReset? hlast)
    · rw [happend] at hnone
      cases hnone
  | none =>
    rw [hlast, Option.none_or] at happend
    have hquiet := StageEvent.lastReset?_eq_none.1 hlast
    refine ⟨h.coupled, fun hgone => ?_, fun hnone => ?_⟩
    · have htype := htold.type path hquiet
      rw [h.gone (happend ▸ hgone)] at htype
      exact Option.map_eq_none_iff.1 htype
    · rw [Setting.adapterOf?, htold.typeOf? hquiet]
      exact h.adapter (happend ▸ hnone)

/-- What is pending after the first event says nothing of a removal that was not pending before. -/
theorem gone_tail (h : Assigned missing path σ stage (event :: pending) c)
    (hgone : StageEvent.lastReset? pending path = some (.removed path)) :
    stage.prims[path]? = none := by
  apply h.gone
  rw [StageEvent.lastReset?_cons, hgone, Option.some_or]

/-- An event that resets nothing of the prim can be taken off the front, if the prim keeps its
adapter. -/
theorem tail (h : Assigned missing path σ stage (event :: pending) c)
    (hreset : ¬ event.Resets path) {d : Cell} (hcoupled : d.Coupled)
    (hadapter : d.adapter? = c.adapter?) : Assigned missing path σ stage pending d where
  coupled := hcoupled
  gone := h.gone_tail
  adapter hnone := by
    rw [hadapter]
    exact h.adapter ((StageEvent.lastReset?_cons_of_not_resets hreset pending).trans hnone)

/-- **Taking in the first event**: a reset begins the prim by the type it has now, or ends it. -/
theorem take (h : Assigned missing path σ stage (event :: pending) c) (hpath : event.path = path) :
    Assigned missing path σ stage pending (c.take σ stage event) := by
  subst hpath
  have hcoupled := Cell.coupled_invariant.take h.coupled σ stage event
  cases event with
  | defined path type =>
    refine ⟨hcoupled, h.gone_tail, fun _ => Or.inl ?_⟩
    -- what was held is gone, and the type that counts is not the event's but the stage's
    rw [Cell.take, h.coupled.remove_eq, Cell.adapter?_populate]
    exact Option.or_none
  | removed path =>
    refine ⟨hcoupled, h.gone_tail, fun (hnone : StageEvent.lastReset? pending path = none) => ?_⟩
    left
    -- no later reset: the removal was the last, so the prim is gone
    have hself : (StageEvent.removed path).Resets path := rfl
    have hlast : StageEvent.lastReset? (.removed path :: pending) path = some (.removed path) := by
      rw [StageEvent.lastReset?_cons, hnone, Option.none_or, if_pos hself]
    rw [Cell.take, h.coupled.remove_eq]
    exact (Imager.adapterOf?_of_absent σ (h.gone hlast)).symm
  | changed path name =>
    exact h.tail StageEvent.resets_changed hcoupled (Cell.adapter?_change name)

/-- **Populating leaves no prim missing.** -/
theorem populate (h : Assigned missing path σ stage pending c) :
    Assigned False path σ stage pending (c.populate σ stage path) where
  coupled := Cell.coupled_invariant.populate _ _ _ h.coupled
  gone := h.gone
  adapter hnone := by
    -- what should be imaged is begun anew, and nothing else was held
    left
    rw [Cell.adapter?_populate]
    rcases h.adapter hnone with heq | ⟨-, hmissing⟩
    · rw [heq, Option.or_self]
    · rw [hmissing, Option.or_none]

theorem mono {missing' : Prop} (himp : missing → missing')
    (h : Assigned missing path σ stage pending c) : Assigned missing' path σ stage pending c :=
  ⟨h.coupled, h.gone, fun hnone => (h.adapter hnone).imp_right (And.imp_left himp)⟩

/-- **Whatever happens in a session**, the prims that are not missing have their adapters. -/
theorem maintained (missing : Prop) (path : PrimPath) :
    Session.Maintained path (fun _ _ _ => True) (Assigned missing path) where
  told := Assigned.told
  drain h := ⟨h.coupled, h.gone, h.adapter⟩
  skip h hpath := h.tail (fun hreset => hpath (StageEvent.path_eq_of_resets hreset)) h.coupled rfl
  take := Assigned.take
  populate h := h.populate.mono False.elim
  touch h _ :=
    ⟨Cell.coupled_invariant.touch h.coupled, h.gone, Cell.adapter?_touch.symm ▸ h.adapter⟩
  sync h :=
    ⟨Cell.coupled_invariant.sync _ _ _ h.coupled, h.gone, (Cell.adapter?_sync _).symm ▸ h.adapter⟩

end Assigned

/-- Which adapter images a prim, in full. -/
theorem Imager.adapterOf?_eq_some_iff {im : Imager} {stage : Stage} {path : PrimPath}
    {a : CapsuleAdapter} :
    im.adapterOf? stage path = some a ↔
      ∃ prim, stage.prims[path]? = some prim ∧ prim.type ≠ "" ∧
        im.registry.adapterFor? prim.type = some a ∧ CapsuleAdapter.isSupportedBy im.index := by
  rw [adapterOf?, Option.filter_eq_some_iff, Stage.typeOf?]
  cases stage.prims[path]? with
  | none => simp
  | some prim => by_cases htype : prim.type = "" <;> simp [htype, Option.filter]

namespace Session

/-- The session after some actions. -/
def run (s : Session) (actions : List Action) : Session :=
  actions.foldl act s

/-- If every move in time is allowed, any actions lead on. -/
theorem Reaches.run {start s : Session} (h : Reaches (fun _ _ => True) start s)
    (actions : List Action) : Reaches (fun _ _ => True) start (s.run actions) := by
  induction actions generalizing s with
  | nil => exact h
  | cons a rest ih => exact ih (.act h a fun _ _ => trivial)

/-- Before a session is populated: a stage whose log is dropped, and a fresh imager. -/
def unpopulated (registry : Registry) (supported : List String) (caches : CacheBank)
    (stage : Stage) : Session where
  stage := stage.drain.2
  drained := []
  imager := .fresh registry supported caches

/-- A session that does something, is populated, and goes on. -/
def populatedRun (registry : Registry) (supported : List String) (caches : CacheBank)
    (stage : Stage) (before after : List Action) : Session :=
  (((unpopulated registry supported caches stage).run before).act .populate).run after

section PopulatedRun

variable (registry : Registry) (supported : List String) (caches : CacheBank) (stage : Stage)
  (before after : List Action)

/-- It may go on further. -/
theorem populatedRun_append (more : List Action) :
    populatedRun registry supported caches stage before (after ++ more) =
      (populatedRun registry supported caches stage before after).run more :=
  List.foldl_append

theorem reaches_populatedRun :
    Reaches (fun _ _ => True) (unpopulated registry supported caches stage)
      (populatedRun registry supported caches stage before after) :=
  (Reaches.act (Reaches.start.run before) .populate fun _ _ => trivial).run after

/-- **From when it is populated on**, whatever has happened before, a session has for each prim the
adapter that its type asks for, or a reset of it is pending. -/
theorem assigned_populatedRun (path : PrimPath) :
    let s := populatedRun registry supported caches stage before after
    s.imager.Holds (Assigned False path) s.stage s.pending path := by
  let start := unpopulated registry supported caches stage
  have hstart : start.imager.Holds (Assigned True path) start.stage start.pending path := by
    rw [Imager.Holds, show start.imager.cell path = Cell.vacant from Imager.cell_fresh path]
    exact assigned_vacant
  have hbefore := (Assigned.maintained True path).reaches (fun _ _ _ _ => trivial)
    (Reaches.start.run before) hstart
  have hpopulated : ((start.run before).imager.populate (start.run before).stage).2.Holds
      (Assigned False path) (start.run before).stage (start.run before).pending path := by
    rw [Imager.Holds, Imager.setting_populate, Imager.cell_populate]
    exact hbefore.populate
  exact (Assigned.maintained False path).reaches (fun _ _ _ _ => trivial) (Reaches.start.run after)
    hpopulated

/-- With nothing pending, it is the adapter that the type asks for. -/
theorem adapter_populatedRun (path : PrimPath)
    (hpending : (populatedRun registry supported caches stage before after).pending = []) :
    let s := populatedRun registry supported caches stage before after
    (s.imager.entries[path]?).map (·.adapter) = s.imager.adapterOf? s.stage path := by
  intro s
  have hassigned : s.imager.Holds (Assigned False path) s.stage s.pending path :=
    assigned_populatedRun registry supported caches stage before after path
  rw [show s.pending = [] from hpending] at hassigned
  exact (hassigned.adapter rfl).resolve_right (·.1)

theorem registry_populatedRun :
    (populatedRun registry supported caches stage before after).imager.registry = registry := by
  have hsetting := (reaches_populatedRun registry supported caches stage before after).setting
  exact congrArg Setting.registry hsetting

end PopulatedRun

/-- **The imager and its index agree on which prims there are, and so does the stage.** Whatever
calls an imager has had, it has an entry exactly where its index has an rprim. And once a session
has been populated, whatever has happened before and since, then with nothing pending the prims
that have an entry are those that the stage has, by a type with an adapter that the index supports;
and it is the adapter of the type they now have. -/
theorem population_agrees (registry : Registry) (supported : List String) (caches : CacheBank) :
    (∀ (operations : List Imager.Operation) (path : PrimPath),
      path ∈ ((Imager.fresh registry supported caches).run operations).entries ↔
        path ∈ ((Imager.fresh registry supported caches).run operations).index.rprims) ∧
    ∀ (stage : Stage) (before after : List Action),
      let s := populatedRun registry supported caches stage before after
      s.pending = [] → ∀ path : PrimPath,
        (path ∈ s.imager.entries ↔
          ∃ prim, s.stage.prims[path]? = some prim ∧ prim.type ≠ "" ∧
            (registry.adapterFor? prim.type).isSome ∧
              CapsuleAdapter.isSupportedBy s.imager.index) ∧
        ∀ entry, s.imager.entries[path]? = some entry →
          ∃ prim, s.stage.prims[path]? = some prim ∧
            registry.adapterFor? prim.type = some entry.adapter := by
  constructor
  · intro operations path
    have hcoupled :=
      Imager.holds_run Cell.coupled_invariant registry supported caches operations path
    rw [ExtTreeMap.mem_iff_isSome_getElem?, ExtTreeMap.mem_iff_isSome_getElem?]
    exact Bool.eq_iff_iff.1 (Eq.symm hcoupled)
  · intro stage before after s hpending path
    have hadapter : (s.imager.entries[path]?).map (·.adapter) = s.imager.adapterOf? s.stage path :=
      adapter_populatedRun registry supported caches stage before after path hpending
    have hregistry : s.imager.registry = registry :=
      registry_populatedRun registry supported caches stage before after
    have hheld : ∀ entry, s.imager.entries[path]? = some entry →
        ∃ prim, s.stage.prims[path]? = some prim ∧ prim.type ≠ "" ∧
          registry.adapterFor? prim.type = some entry.adapter ∧
            CapsuleAdapter.isSupportedBy s.imager.index := by
      intro entry hentry
      rw [hentry, Option.map_some] at hadapter
      rw [← hregistry]
      exact Imager.adapterOf?_eq_some_iff.1 hadapter.symm
    refine ⟨⟨fun hmem => ?_, ?_⟩, fun entry hentry => ?_⟩
    · obtain ⟨entry, hentry⟩ := Option.isSome_iff_exists.1
        (ExtTreeMap.mem_iff_isSome_getElem?.1 hmem)
      obtain ⟨prim, hprim, htype, hfor, hmesh⟩ := hheld entry hentry
      exact ⟨prim, hprim, htype, Option.isSome_of_eq_some hfor, hmesh⟩
    · rintro ⟨prim, hprim, htype, hfor, hmesh⟩
      obtain ⟨a, ha⟩ := Option.isSome_iff_exists.1 hfor
      rw [← hregistry] at ha
      rw [Imager.adapterOf?_eq_some_iff.2 ⟨prim, hprim, htype, ha, hmesh⟩] at hadapter
      obtain ⟨entry, hentry, -⟩ := Option.map_eq_some_iff.1 hadapter
      exact ExtTreeMap.mem_iff_isSome_getElem?.2 (Option.isSome_of_eq_some hentry)
    · obtain ⟨prim, hprim, -, hfor, -⟩ := hheld entry hentry
      exact ⟨prim, hprim, hfor⟩

/-- A registry that images one type only. -/
def oneType : Registry :=
  (Registry.empty.register "Capsule" ⟨{}, 0⟩).2

/-- A session in which events of the time before are still on their way when it is populated, and
in which one batch tells of a prim that is defined, retyped, removed and defined again. -/
def redefined : Session :=
  populatedRun oneType [meshType] .empty .empty
    [.edit (.define ⟨"/a"⟩ "Capsule"), .drain, .edit (.define ⟨"/a/b"⟩ "Capsule")]
    [.edit (.remove ⟨"/a"⟩), .apply 1, .edit (.define ⟨"/a"⟩ "Sphere"),
      .edit (.define ⟨"/c"⟩ "Capsule"), .drain, .edit (.define ⟨"/c"⟩ "Sphere"), .apply 2,
      .edit (.remove ⟨"/c"⟩), .edit (.define ⟨"/c"⟩ "Capsule"), .deliver]

theorem population_agrees_redefined :
    redefined.pending = [] ∧ PrimPath.mk "/a" ∈ redefined.stage.prims ∧
      redefined.imager.entries.keys = [⟨"/c"⟩] ∧
      ∃ prim, redefined.stage.prims[PrimPath.mk "/c"]? = some prim ∧ prim.type ≠ "" ∧
        (oneType.adapterFor? prim.type).isSome ∧
          CapsuleAdapter.isSupportedBy redefined.imager.index := by
  have hpending : redefined.pending = [] := by decide +kernel
  have hagree := (population_agrees oneType [meshType] .empty).2 _ _ _ hpending ⟨"/c"⟩
  exact ⟨hpending, by decide +kernel, by decide +kernel, hagree.1.1 (by decide +kernel)⟩

end Session

end CapsuleImaging
