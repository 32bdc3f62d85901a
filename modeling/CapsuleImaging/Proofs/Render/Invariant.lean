import CapsuleImaging.Proofs.Render.Session

/-!
# Invariants, prim by prim

What holds of every prim all through a run is shown of a single cell. If it is about the cell alone,
it is kept by calls in any order as soon as each function of a cell keeps it (`Cell.Invariant`,
`Imager.holds_run`); what a sync does not keep may still be kept by all other calls
(`Cell.Steady`). If it ties the cell to the stage of a session, it speaks of what is pending as
well. An edit then appends its events, an event is taken off the front, and nothing else that
happens in a session touches what is pending (`Session.Maintained`, `Session.Maintained.reaches`).
-/

namespace CapsuleImaging

open Std

/-! ## Calls in any order -/

/-- **What every function of a cell keeps**, a sync apart. -/
structure Cell.Steady (P : Cell → Prop) : Prop where
  populate : ∀ {c} σ stage path, P c → P (c.populate σ stage path)
  remove : ∀ {c}, P c → P c.remove
  change : ∀ {c} stage path name, P c → P (c.change stage path name)
  touch : ∀ {c}, P c → P c.touch

/-- **What every function of a cell keeps**, and what holds of a cell without a prim. -/
structure Cell.Invariant (P : Cell → Prop) : Prop extends Cell.Steady P where
  vacant : P Cell.vacant
  sync : ∀ {c} time stage path, P c → P (c.sync time stage path)

variable {P : Cell → Prop}

theorem Cell.Steady.take (hP : Cell.Steady P) {c : Cell} (h : P c) (σ : Setting)
    (stage : Stage) (event : StageEvent) : P (c.take σ stage event) := by
  cases event with
  | defined path type => exact hP.populate σ stage path (hP.remove h)
  | removed path => exact hP.remove h
  | changed path name => exact hP.change stage path name h

namespace Imager

/-- A call other than a sync keeps what every other function of a cell keeps. -/
theorem holds_perform_of_steady (hP : Cell.Steady P) {im : Imager} (h : ∀ path, P (im.cell path))
    (operation : Operation) (hsync : ∀ stage, operation ≠ .sync stage) (path : PrimPath) :
    P ((im.perform operation).cell path) := by
  cases operation with
  | populate stage =>
    rw [perform, cell_populate]
    exact hP.populate _ _ _ (h path)
  | apply stage events =>
    -- event by event, of all cells at once, since each event has a path of its own
    change P ((im.applyEvents stage events).cell path)
    clear hsync
    induction events generalizing im with
    | nil => exact h path
    | cons event rest ih =>
      refine ih fun q => ?_
      rw [cell_applyEvent]
      split
      · exact hP.take (h q) _ _ _
      · exact h q
  | setTime time =>
    rw [perform, cell_setTime]
    split
    · exact h path
    · exact hP.touch (h path)
  | sync stage => exact absurd rfl (hsync stage)
  | remove removed =>
    rw [perform, cell_removePrim]
    split
    · exact hP.remove (h path)
    · exact h path

/-- One call keeps what every function of a cell keeps. -/
theorem holds_perform (hP : Cell.Invariant P) {im : Imager} (h : ∀ path, P (im.cell path))
    (operation : Operation) (path : PrimPath) : P ((im.perform operation).cell path) := by
  by_cases hsync : ∃ stage, operation = .sync stage
  · obtain ⟨stage, rfl⟩ := hsync
    rw [perform, cell_sync]
    exact hP.sync _ _ _ (h path)
  · exact holds_perform_of_steady hP.toSteady h operation (fun stage heq => hsync ⟨stage, heq⟩) path

/-- **And so do all calls**, from an imager with nothing populated on. -/
theorem holds_run (hP : Cell.Invariant P) (registry : Registry) (supported : List String)
    (caches : CacheBank) (operations : List Operation) (path : PrimPath) :
    P (((fresh registry supported caches).run operations).cell path) := by
  have hrun : ∀ im : Imager, (∀ path, P (im.cell path)) →
      ∀ path, P ((im.run operations).cell path) := by
    intro im him
    induction operations generalizing im with
    | nil => exact him
    | cons operation rest ih => exact ih _ (holds_perform hP him operation)
  refine hrun _ (fun q => ?_) path
  rw [cell_fresh]
  exact hP.vacant

theorem setting_applyEvents (im : Imager) (stage : Stage) (events : List StageEvent) :
    (im.applyEvents stage events).setting = im.setting := by
  induction events generalizing im with
  | nil => rfl
  | cons e rest ih => exact (ih _).trans (setting_applyEvent e)

/-- **No call changes anything of the setting but the time.** -/
theorem setting_perform (im : Imager) (operation : Operation) :
    (im.perform operation).setting =
      { im.setting with time := (im.perform operation).time } := by
  have hkept : ∀ im' : Imager, im'.setting = im.setting →
      im'.setting = { im.setting with time := im'.time } := by
    intro im' h
    rw [← h]
    rfl
  cases operation with
  | populate stage => exact hkept _ setting_populate
  | apply stage events => exact hkept _ (setting_applyEvents im stage events)
  | setTime time =>
    have hsetting : (im.setTime time).setting = _ := setting_setTime time
    by_cases hsame : time.sameMoment im.time
    · exact hkept _ (hsetting.trans (if_pos hsame))
    · rw [if_neg hsame] at hsetting
      have htime : (im.setTime time).time = time := congrArg Setting.time hsetting
      exact hsetting.trans
        (congrArg (fun time => ({ im.setting with time } : Setting)) htime.symm)
  | sync stage => exact hkept _ setting_sync
  | remove path => exact hkept _ (actsBy_removePrim.setting im path)

theorem setting_run (im : Imager) (operations : List Operation) :
    (im.run operations).setting = { im.setting with time := (im.run operations).time } := by
  induction operations generalizing im with
  | nil => rfl
  | cons operation rest ih => exact (ih _).trans (by rw [setting_perform]; rfl)

/-- Whether a statement holds of what an imager holds for a prim, in its setting. -/
def Holds (Q : Setting → Stage → List StageEvent → Cell → Prop) (im : Imager) (stage : Stage)
    (pending : List StageEvent) (path : PrimPath) : Prop :=
  Q im.setting stage pending (im.cell path)

end Imager

/-! ## Sessions -/

namespace Session

/-- **What a session keeps of one prim**, if it moves in time only as allowed while the prim is
populated. -/
structure Maintained (path : PrimPath) (allowed : Stage → TimeCode → TimeCode → Prop)
    (Q : Setting → Stage → List StageEvent → Cell → Prop) : Prop where
  told : ∀ {σ s t pending events c}, Q σ s pending c → Stage.Told s t events →
    Q σ t (pending ++ events) c
  /-- Nothing is read off the log of the stage. -/
  drain : ∀ {σ stage pending c}, Q σ stage pending c → Q σ stage.drain.2 pending c
  /-- An event about another prim is taken off the front. -/
  skip : ∀ {σ stage event pending c}, Q σ stage (event :: pending) c → event.path ≠ path →
    Q σ stage pending c
  take : ∀ {σ stage event pending c}, Q σ stage (event :: pending) c → event.path = path →
    Q σ stage pending (c.take σ stage event)
  populate : ∀ {σ stage pending c}, Q σ stage pending c →
    Q σ stage pending (c.populate σ stage path)
  touch : ∀ {σ stage pending c time}, Q σ stage pending c →
    (c.1.isSome → allowed stage σ.time time) → Q { σ with time } stage pending c.touch
  sync : ∀ {σ stage pending c}, Q σ stage pending c →
    Q σ stage pending (c.sync σ.time stage path)

namespace Maintained

variable {path : PrimPath} {allowed : Stage → TimeCode → TimeCode → Prop}
  {Q : Setting → Stage → List StageEvent → Cell → Prop} {im : Imager} {stage : Stage}
  {events pending : List StageEvent} {s : Session}

theorem holds_populate (hQ : Maintained path allowed Q) (h : im.Holds Q stage pending path) :
    (im.populate stage).2.Holds Q stage pending path := by
  rw [Imager.Holds, Imager.setting_populate, Imager.cell_populate]
  exact hQ.populate h

/-- **Applying events** takes them off the front of what is pending. -/
theorem holds_applyEvents (hQ : Maintained path allowed Q)
    (h : im.Holds Q stage (events ++ pending) path) :
    (im.applyEvents stage events).Holds Q stage pending path := by
  induction events generalizing im with
  | nil => exact h
  | cons event rest ih =>
    refine ih ?_
    rw [Imager.Holds, Imager.setting_applyEvent, Imager.cell_applyEvent]
    split
    · next hpath => exact hQ.take h hpath
    · next hpath => exact hQ.skip h hpath

theorem holds_setTime (hQ : Maintained path allowed Q) (h : im.Holds Q stage pending path)
    {time : TimeCode} (hallowed : path ∈ im.entries → allowed stage im.time time) :
    (im.setTime time).Holds Q stage pending path := by
  rw [Imager.Holds, Imager.setting_setTime, Imager.cell_setTime]
  split
  · exact h
  · refine hQ.touch h fun hentry => hallowed ?_
    exact ExtTreeMap.mem_iff_isSome_getElem?.2 hentry

theorem holds_sync (hQ : Maintained path allowed Q) (h : im.Holds Q stage pending path) :
    (im.sync stage).2.Holds Q stage pending path := by
  rw [Imager.Holds, Imager.setting_sync, Imager.cell_sync]
  exact hQ.sync h

theorem holds_drain (hQ : Maintained path allowed Q)
    (h : s.imager.Holds Q s.stage s.pending path) :
    s.drain.imager.Holds Q s.drain.stage s.drain.pending path := by
  have hpending : s.drain.pending = s.pending := List.append_nil _
  rw [hpending]
  exact hQ.drain h

theorem holds_apply (hQ : Maintained path allowed Q)
    (h : s.imager.Holds Q s.stage s.pending path) (count : Nat) :
    (s.apply count).imager.Holds Q s.stage (s.apply count).pending path := by
  have hsplit : s.drained.take count ++ (s.apply count).pending = s.pending := by
    rw [pending, Session.apply, ← List.append_assoc, List.take_append_drop, pending]
  rw [← hsplit] at h
  exact hQ.holds_applyEvents h

/-- **One action keeps what is maintained.** -/
theorem act (hQ : Maintained path allowed Q) (h : s.imager.Holds Q s.stage s.pending path)
    (a : Action)
    (hmove : ∀ time, a = .setTime time → path ∈ s.imager.entries →
      allowed s.stage s.imager.time time) :
    (s.act a).imager.Holds Q (s.act a).stage (s.act a).pending path := by
  cases a with
  | edit e =>
    -- what the edit logs is the end of what is pending
    obtain ⟨events, htold⟩ := Stage.told_edit s.stage e
    have hpending : (s.act (.edit e)).pending = s.pending ++ events := by
      simp only [pending, Session.act, htold.log, List.append_assoc]
    rw [hpending]
    exact hQ.told h htold
  | deliver => exact hQ.holds_apply (hQ.holds_drain h) _
  | drain => exact hQ.holds_drain h
  | apply count => exact hQ.holds_apply h count
  | populate => exact hQ.holds_populate h
  | sync => exact hQ.holds_sync h
  | setTime time => exact hQ.holds_setTime h (hmove time rfl)

/-- **And so does a whole session.** -/
theorem reaches (hQ : Maintained path allowed Q) {moves : Session → TimeCode → Prop}
    (hmoves : ∀ s time, moves s time → path ∈ s.imager.entries →
      allowed s.stage s.imager.time time) {start : Session} (hrun : Reaches moves start s)
    (hstart : start.imager.Holds Q start.stage start.pending path) :
    s.imager.Holds Q s.stage s.pending path := by
  induction hrun with
  | start => exact hstart
  | act _ a hmove ih => exact hQ.act ih a fun time ha => hmoves _ time (hmove time ha)

end Maintained

/-! ## The setting -/

/-- No action changes anything of the setting but the time. -/
theorem setting_act (s : Session) (a : Action) :
    (s.act a).imager.setting = { s.imager.setting with time := (s.act a).imager.time } := by
  rw [imager_act]
  exact Imager.setting_run s.imager (s.calls a)

/-- The registry and the types that are supported are the same all through a session. -/
theorem Reaches.setting {moves : Session → TimeCode → Prop} {start s : Session}
    (hrun : Reaches moves start s) :
    s.imager.setting = { start.imager.setting with time := s.imager.time } := by
  induction hrun with
  | start => rfl
  | @act s _ a _ ih =>
    rw [setting_act, ih]

end Session

end CapsuleImaging
