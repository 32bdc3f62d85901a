import CapsuleImaging.Proofs.Capsule.TimeMove
import CapsuleImaging.Proofs.Change.ShortCircuit
import CapsuleImaging.Proofs.Render.Following
import CapsuleImaging.Proofs.Render.Lifetime

/-!
# Records of what varies

The record of a prim is made when the prim is populated and is added to with every edit of it that
is taken in. So it only grows while the prim lives (`Cell.lasting_known`). It is also complete, but
for edits on their way: an attribute that may vary has its category on record, or an edit of it is
pending, or a reset of the prim is (`Cell.Recorded`). An event that is taken in may have been
overtaken by the stage; since each of them has the whole prim asked about, as it is by then, that
does no harm.
-/

namespace CapsuleImaging

open Std

namespace Variability

variable {v : Variability} {stage s t : Stage} {path : PrimPath} {name : String}
  {category : DirtyBits}

/-- Whether an attribute contributes is seen from its own record and the type of the prim. -/
theorem Contributes.congr (h : Contributes t path name category)
    (hname : t.authored? path name = s.authored? path name)
    (htype : t.typeOf? path = s.typeOf? path) : Contributes s path name category := by
  have hauthored : name ∈ t.attributeNames path → name ∈ s.attributeNames path := by
    rw [Stage.mem_attributeNames_iff, hname, Stage.mem_attributeNames_iff]
    exact id
  cases h with
  | order h => exact .order (hauthored h)
  | op rest h => exact .op rest (hauthored h)
  | visibility h => exact .visibility (hauthored h)
  | extent h => exact .extent (hauthored h)
  | primvar rest h => exact .primvar rest (hauthored h)
  | shape schema a hschema ha =>
    rw [CapsuleSchema.of?_congr htype] at hschema
    exact .shape schema a hschema ha

/-- Tracking forgets nothing. -/
theorem contains_trackCapsule_self (v : Variability) (stage : Stage) (path : PrimPath) :
    (v.trackCapsule stage path).varying.contains v.varying :=
  DirtyBits.contains_iff.2 fun i hi => (isUnion_trackCapsule v stage path i).2 (Or.inl hi)

/-- Tracking finds whatever may vary. -/
theorem contains_trackCapsule (h : Contributes stage path name category)
    (hvary : stage.mayVary path name) :
    (v.trackCapsule stage path).varying.contains category :=
  DirtyBits.contains_iff.2 fun i hi =>
    (isUnion_trackCapsule v stage path i).2 (Or.inr ⟨category, ⟨name, h, hvary⟩, hi⟩)

/-- A set that has whatever may vary has all that a first record would have. -/
theorem contains_recorded {bits : DirtyBits} (h : ∀ name category,
    Contributes stage path name category → stage.mayVary path name → bits.contains category) :
    bits.contains (stage.recorded path) := by
  refine DirtyBits.contains_iff.2 fun i hi => ?_
  rcases (isUnion_trackCapsule {} stage path i).1 hi with hclean | ⟨category, ⟨name, hname⟩, hbit⟩
  · -- a record starts empty
    exact absurd hclean (by simp [DirtyBits.clean])
  · exact DirtyBits.contains_iff.1 (h name category hname.1 hname.2) i hbit

end Variability

namespace Cell

open Variability

variable {σ : Setting} {s t stage : Stage} {events pending : List StageEvent} {event : StageEvent}
  {path : PrimPath} {c : Cell}

/-! ## Growth -/

/-- Whether the record of a prim has some categories. -/
def Knows (known : DirtyBits) (c : Cell) : Prop :=
  ∃ entry, c.1 = some entry ∧ entry.varying.contains known

/-- **While a prim lives, nothing is taken off its record.** -/
theorem lasting_knows (known : DirtyBits) : Lasting path (fun _ => True) (Knows known) where
  change {c} stage name _ := by
    rintro ⟨entry, hentry, hknown⟩
    simp only [Knows, change, hentry, Option.some.injEq, exists_eq_left']
    exact DirtyBits.contains_trans (contains_trackCapsule_self _ stage path) hknown
  touch {c} := by
    rintro ⟨entry, hentry, hknown⟩
    simp only [Knows, touch, hentry, Option.some.injEq, exists_eq_left']
    exact hknown
  sync {c} time stage := by
    rintro ⟨entry, hentry, hknown⟩
    simp only [Knows, sync, hentry, Option.some.injEq, exists_eq_left']
    exact hknown

/-! ## Completeness -/

/-- **What may vary is on record**, or an edit of it is pending, or the whole prim will be reset. -/
def Recorded (path : PrimPath) (_ : Setting) (stage : Stage) (pending : List StageEvent)
    (c : Cell) : Prop :=
  (∀ e ∈ pending, ¬ e.Resets path) → ∀ entry, c.1 = some entry → ∀ name category,
    Contributes stage path name category → stage.mayVary path name →
      .changed path name ∈ pending ∨ entry.varying.contains category

/-- A record of a prim as the stage has it now is complete, whatever is pending. -/
theorem recorded_of_track
    (h : ∀ entry, c.1 = some entry →
      ∃ v : Variability, entry.varying = (v.trackCapsule stage path).varying) :
    Recorded path σ stage pending c := by
  intro _ entry hentry name category hcontributes hvary
  obtain ⟨v, hv⟩ := h entry hentry
  rw [hv]
  exact Or.inr (contains_trackCapsule hcontributes hvary)

/-- A prim that is not populated has nothing to record. -/
theorem recorded_of_none (h : c.1 = none) : Recorded path σ stage pending c := by
  intro _ entry hentry
  rw [h] at hentry
  cases hentry

/-- Nothing is held for a prim that is no longer imaged. -/
theorem fst_remove : c.remove.1 = none := by
  unfold Cell.remove
  split
  · rfl
  · next hnone => exact Option.not_isSome_iff_eq_none.1 hnone

namespace Recorded

/-- **An edit leaves the record behind by its own events only.** -/
theorem told (h : Recorded path σ s pending c) (htold : Stage.Told s t events) :
    Recorded path σ t (pending ++ events) c := by
  intro hquiet entry hentry name category hcontributes hvary
  have hbefore : ∀ e ∈ pending, ¬ e.Resets path := fun e he => hquiet e (List.mem_append_left _ he)
  have hnow : ∀ e ∈ events, ¬ e.Resets path := fun e he => hquiet e (List.mem_append_right _ he)
  by_cases hedited : .changed path name ∈ events
  · exact Or.inl (List.mem_append_right _ hedited)
  · -- the attribute is as it was, and so it is recorded as it was
    have hauthored := htold.authored path name hnow hedited
    have hcontributed := hcontributes.congr hauthored (htold.typeOf? hnow)
    rw [htold.mayVary hnow hedited] at hvary
    exact (h hbefore entry hentry name category hcontributed hvary).imp_left
      (List.mem_append_left _)

/-- An event about another prim can be taken off the front. -/
theorem skip (h : Recorded path σ stage (event :: pending) c) (hpath : event.path ≠ path) :
    Recorded path σ stage pending c := by
  intro hquiet entry hentry name category hcontributes hvary
  have hevent : ¬ event.Resets path := fun hreset => hpath (StageEvent.path_eq_of_resets hreset)
  have hall : ∀ e ∈ event :: pending, ¬ e.Resets path := List.forall_mem_cons.2 ⟨hevent, hquiet⟩
  exact (h hall entry hentry name category hcontributes hvary).imp_left (mem_of_path_ne hpath)

theorem populate (h : Recorded path σ stage pending c) :
    Recorded path σ stage pending (c.populate σ stage path) := by
  unfold Cell.populate
  split
  · exact h
  · refine recorded_of_track fun entry hentry => ⟨{}, ?_⟩
    cases hentry
    rfl

/-- **Taking in an event** makes the record complete, whatever the event was: a reset makes a new
one or leaves none, and an edit has the prim asked about. -/
theorem take (hpath : event.path = path) : Recorded path σ stage pending (c.take σ stage event) := by
  subst hpath
  cases event with
  | defined path type => exact (recorded_of_none fst_remove).populate
  | removed path => exact recorded_of_none fst_remove
  | changed path name =>
    refine recorded_of_track fun entry hentry => ?_
    obtain ⟨held, r?⟩ := c
    cases held with
    | none => cases hentry
    | some before =>
      cases hentry
      exact ⟨_, rfl⟩

/-- **A record stays complete all through a session.** -/
theorem maintained (path : PrimPath) :
    Session.Maintained path (fun _ _ _ => True) (Recorded path) where
  told := told
  drain h hquiet entry hentry name category hcontributes :=
    h hquiet entry hentry name category (hcontributes.congr rfl rfl)
  skip := skip
  take _ hpath := take hpath
  populate := populate
  touch {σ stage pending c time} h _ := by
    obtain ⟨_ | entry, r?⟩ := c
    · exact h
    · intro hquiet later hlater
      cases hlater
      exact h hquiet entry rfl
  sync {σ stage pending c} h := by
    obtain ⟨_ | entry, r?⟩ := c
    · exact h
    · intro hquiet later hlater
      cases hlater
      exact h hquiet entry rfl

end Recorded

end Cell

namespace Session

/-- **Records only grow, and are complete when nothing is pending.** From when a session has been
populated, whatever has happened before and since: as long as the calls that further actions make
spare a prim, its record has what it had; and with nothing pending, the record of each prim that is
populated has all that a first record of the prim would have now. -/
theorem records_accumulate (registry : Registry) (supported : List String) (caches : CacheBank)
    (stage : Stage) (before after : List Action) :
    let s := populatedRun registry supported caches stage before after
    (∀ (path : PrimPath) (entry : Entry), s.imager.entries[path]? = some entry →
      ∀ actions : List Action,
        (∀ call ∈ s.callsOf actions, call.Spares s.imager.setting path fun _ => True) →
        ∃ later, (s.run actions).imager.entries[path]? = some later ∧
          later.varying.contains entry.varying) ∧
    (s.pending = [] → ∀ (path : PrimPath) (entry : Entry),
      s.imager.entries[path]? = some entry → entry.varying.contains (s.stage.recorded path)) := by
  intro s
  refine ⟨fun path entry hentry actions hspares => ?_, fun hpending path entry hentry => ?_⟩
  · have hknows : Cell.Knows entry.varying (s.imager.cell path) :=
      ⟨entry, hentry, DirtyBits.contains_self _⟩
    exact holds_run_of_spares (Cell.lasting_knows entry.varying) hknows hspares
  · let start := unpopulated registry supported caches stage
    have hstart : start.imager.Holds (Cell.Recorded path) start.stage start.pending path := by
      refine Cell.recorded_of_none ?_
      rw [show start.imager.cell path = Cell.vacant from Imager.cell_fresh path]
      rfl
    have hrecorded : s.imager.Holds (Cell.Recorded path) s.stage s.pending path :=
      (Cell.Recorded.maintained path).reaches (fun _ _ _ _ => trivial)
        (reaches_populatedRun registry supported caches stage before after) hstart
    rw [hpending] at hrecorded
    refine Variability.contains_recorded fun name category hcontributes hvary => ?_
    have hnone : ∀ e ∈ ([] : List StageEvent), ¬ e.Resets path := fun e he => by cases he
    exact (hrecorded hnone entry hentry name category hcontributes hvary).resolve_left
      List.not_mem_nil

/-- A session with a capsule whose visibility is supplied from outside the scene. -/
def shown : Session :=
  populatedRun oneType [meshType] .empty .empty
    [.edit (.define ⟨"/c"⟩ "Capsule"), .edit (.setClips ⟨"/c"⟩ "visibility" true)] [.deliver]

/-- The visibility is fixed, and the height is given samples, of which the second is set when the
first has been drained already. -/
def fixing : List Action :=
  [.edit (.clear ⟨"/c"⟩ "visibility"), .edit (.setSample ⟨"/c"⟩ "height" 0 (.double 1)), .drain,
    .edit (.setSample ⟨"/c"⟩ "height" 1 (.double 2)), .apply 2, .sync, .setTime (.at 1), .deliver]

theorem records_accumulate_fixing :
    (shown.imager.entries[PrimPath.mk "/c"]?).map (·.varying) = some .visibility ∧
      (shown.run fixing).pending = [] ∧
      (shown.run fixing).stage.recorded ⟨"/c"⟩ = .points ∧
      ∃ later, (shown.run fixing).imager.entries[PrimPath.mk "/c"]? = some later ∧
        later.varying.contains .visibility ∧ later.varying.contains .points := by
  obtain ⟨hgrow, -⟩ := records_accumulate oneType [meshType] .empty .empty
    [.edit (.define ⟨"/c"⟩ "Capsule"), .edit (.setClips ⟨"/c"⟩ "visibility" true)] [.deliver]
  obtain ⟨-, hcomplete⟩ := records_accumulate oneType [meshType] .empty .empty
    [.edit (.define ⟨"/c"⟩ "Capsule"), .edit (.setClips ⟨"/c"⟩ "visibility" true)]
    ([.deliver] ++ fixing)
  rw [populatedRun_append, ← shown] at hcomplete
  have hbefore : (shown.imager.entries[PrimPath.mk "/c"]?).map (·.varying) = some .visibility := by
    decide +kernel
  have hpending : (shown.run fixing).pending = [] := by decide +kernel
  have hrecorded : (shown.run fixing).stage.recorded ⟨"/c"⟩ = .points := by decide +kernel
  obtain ⟨entry, hentry, hvarying⟩ := Option.map_eq_some_iff.1 hbefore
  obtain ⟨later, hlater, hkept⟩ := hgrow ⟨"/c"⟩ entry hentry fixing (by decide +kernel)
  have hall := hcomplete hpending ⟨"/c"⟩ later hlater
  exact ⟨hbefore, hpending, hrecorded, later, hlater, hvarying ▸ hkept, hrecorded ▸ hall⟩

end Session

end CapsuleImaging
