import CapsuleImaging.Proofs.Render.Population

/-!
# A prim while it lives

A prim lives from when it is populated until it is populated anew or removed. What happens to it
meanwhile is of three kinds only: an edit of it is taken in, the time moves, or it is synced
(`Cell.Lasting`). So a statement about its cell that these three keep holds for as long as each call
spares the prim (`Imager.holds_run_of_spares`), and in a session as long as the calls that its
actions make do (`Session.holds_run_of_spares`). Nothing is asked of the stages that the calls are
given, nor of the events, as far as these are about other prims.
-/

namespace CapsuleImaging

/-- Whether an event spares a prim: it is no reset of the prim, and if it tells of an edit of the
prim, then of a certain property. -/
def StageEvent.Spares (path : PrimPath) (edited : String → Prop) : StageEvent → Prop
  | .defined q _ => q ≠ path
  | .removed q => q ≠ path
  | .changed q name => q = path → edited name

/-- **Whether a call spares a prim**: it neither populates the prim anew nor removes it, and of the
prim's properties it tells of edits to certain ones only. -/
def Imager.Operation.Spares (σ : Setting) (path : PrimPath) (edited : String → Prop) :
    Imager.Operation → Prop
  | .populate stage => σ.adapterOf? stage path = none
  | .apply _ events => ∀ e ∈ events, e.Spares path edited
  | .setTime _ => True
  | .sync _ => True
  | .remove removed => removed ≠ path

section Decidable

variable {σ : Setting} {path : PrimPath} {edited : String → Prop} [DecidablePred edited]

instance : ∀ e : StageEvent, Decidable (e.Spares path edited)
  | .defined q _ => inferInstanceAs (Decidable (q ≠ path))
  | .removed q => inferInstanceAs (Decidable (q ≠ path))
  | .changed q name => inferInstanceAs (Decidable (q = path → edited name))

instance : ∀ operation : Imager.Operation, Decidable (operation.Spares σ path edited)
  | .populate stage => inferInstanceAs (Decidable (σ.adapterOf? stage path = none))
  | .apply _ events => inferInstanceAs (Decidable (∀ e ∈ events, e.Spares path edited))
  | .setTime _ => inferInstanceAs (Decidable True)
  | .sync _ => inferInstanceAs (Decidable True)
  | .remove removed => inferInstanceAs (Decidable (removed ≠ path))

end Decidable

/-- **What lasts while a prim lives**, if only certain properties of it are edited. -/
structure Cell.Lasting (path : PrimPath) (edited : String → Prop) (P : Cell → Prop) : Prop where
  change : ∀ {c} stage name, edited name → P c → P (c.change stage path name)
  touch : ∀ {c}, P c → P c.touch
  sync : ∀ {c} time stage, P c → P (c.sync time stage path)

variable {path : PrimPath} {edited : String → Prop} {P : Cell → Prop}

namespace Imager

/-- No call changes which adapter images a prim. -/
theorem adapterOf?_perform (im : Imager) (operation : Operation) (stage : Stage) :
    (im.perform operation).setting.adapterOf? stage path = im.setting.adapterOf? stage path := by
  rw [setting_perform]
  rfl

theorem Operation.spares_perform {im : Imager} {called operation : Operation} :
    operation.Spares (im.perform called).setting path edited ↔
      operation.Spares im.setting path edited := by
  cases operation with
  | populate stage => rw [Spares, Spares, adapterOf?_perform]
  | _ => exact Iff.rfl

/-- **A call that spares a prim keeps what lasts.** -/
theorem holds_perform_of_spares (hP : Cell.Lasting path edited P) {im : Imager}
    (h : P (im.cell path)) {operation : Operation}
    (hspares : operation.Spares im.setting path edited) : P ((im.perform operation).cell path) := by
  cases operation with
  | populate stage =>
    have hnone : im.setting.adapterOf? stage path = none := hspares
    rw [perform, cell_populate, Cell.populate, hnone]
    exact h
  | apply stage events =>
    change P ((im.applyEvents stage events).cell path)
    replace hspares : ∀ e ∈ events, e.Spares path edited := hspares
    induction events generalizing im with
    | nil => exact h
    | cons event rest ih =>
      refine ih ?_ fun e he => hspares e (List.mem_cons_of_mem _ he)
      rw [cell_applyEvent]
      split
      · next hpath =>
        have hevent : event.Spares path edited := hspares event List.mem_cons_self
        cases event with
        | defined q type => exact absurd hpath hevent
        | removed q => exact absurd hpath hevent
        | changed q name =>
          obtain rfl : q = path := hpath
          exact hP.change stage name (hevent rfl) h
      · exact h
  | setTime time =>
    rw [perform, cell_setTime]
    split
    · exact h
    · exact hP.touch h
  | sync stage =>
    rw [perform, cell_sync]
    exact hP.sync _ _ h
  | remove removed =>
    have hne : removed ≠ path := hspares
    rw [perform, cell_removePrim, if_neg hne]
    exact h

/-- **And so do any calls that spare it.** -/
theorem holds_run_of_spares (hP : Cell.Lasting path edited P) {im : Imager} (h : P (im.cell path))
    {operations : List Operation}
    (hspares : ∀ call ∈ operations, call.Spares im.setting path edited) :
    P ((im.run operations).cell path) := by
  induction operations generalizing im with
  | nil => exact h
  | cons operation rest ih =>
    have hfirst := holds_perform_of_spares hP h (hspares operation List.mem_cons_self)
    refine ih hfirst fun call hcall => ?_
    exact Operation.spares_perform.2 (hspares call (List.mem_cons_of_mem _ hcall))

end Imager

namespace Session

/-- The calls that some actions make of the imager, in order. -/
def callsOf (s : Session) : List Action → List Imager.Operation
  | [] => []
  | a :: rest => s.calls a ++ (s.act a).callsOf rest

theorem imager_run (s : Session) (actions : List Action) :
    (s.run actions).imager = s.imager.run (s.callsOf actions) := by
  induction actions generalizing s with
  | nil => rfl
  | cons a rest ih =>
    have hlater : (s.run (a :: rest)).imager = (s.act a).imager.run ((s.act a).callsOf rest) :=
      ih (s.act a)
    rw [hlater, imager_act, callsOf, Imager.run, Imager.run, Imager.run, List.foldl_append]

theorem holds_run_of_spares (hP : Cell.Lasting path edited P) {s : Session}
    (h : P (s.imager.cell path)) {actions : List Action}
    (hspares : ∀ call ∈ s.callsOf actions, call.Spares s.imager.setting path edited) :
    P ((s.run actions).imager.cell path) := by
  rw [imager_run]
  exact Imager.holds_run_of_spares hP h hspares

end Session

end CapsuleImaging
