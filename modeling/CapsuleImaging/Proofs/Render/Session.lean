import CapsuleImaging.Proofs.Render.Cell
import CapsuleImaging.Proofs.Scene.Edit

/-!
# Runs

Two kinds of run. In the looser one an imager is called in any order, each time with any stage and
any events (`Imager.run`): nothing ties one call to another. In a **session** one stage is edited
and one imager follows it, taking the events that the stage has logged, in order and none left out
(`Session.Reaches`). Between an event's being logged and its being applied the stage may be edited
further and the imager may sync; what is on its way is `Session.pending`.
-/

namespace CapsuleImaging

open Std

namespace Imager

/-- An imager with nothing populated yet, over caches that may have been used before. -/
def fresh (registry : Registry) (supported : List String) (caches : CacheBank) : Imager :=
  { ofRegistry registry supported with caches }

/-- One call of an imager, with the stage it is given. -/
inductive Operation where
  | populate (stage : Stage)
  | apply (stage : Stage) (events : List StageEvent)
  | setTime (time : TimeCode)
  | sync (stage : Stage)
  | remove (path : PrimPath)

/-- The imager after a call. -/
def perform (im : Imager) : Operation → Imager
  | .populate stage => (im.populate stage).2
  | .apply stage events => im.applyEvents stage events
  | .setTime time => im.setTime time
  | .sync stage => (im.sync stage).2
  | .remove path => im.removePrim path

/-- The imager after some calls. -/
def run (im : Imager) (operations : List Operation) : Imager :=
  operations.foldl perform im

variable {registry : Registry} {supported : List String} {caches : CacheBank}

theorem cell_fresh (q : PrimPath) : (fresh registry supported caches).cell q = Cell.vacant := by
  simp only [cell, fresh, ofRegistry, RenderIndex.ofSupported, ExtTreeMap.getElem?_empty,
    Cell.vacant]

end Imager

/-- A stage, the imager that follows it, and the events on their way from one to the other. -/
structure Session where
  stage : Stage
  /-- What was drained from the stage and not applied yet, in order. -/
  drained : List StageEvent
  imager : Imager

namespace Session

/-- Everything that has happened to the stage and that the imager has not been told. -/
def pending (s : Session) : List StageEvent :=
  s.drained ++ s.stage.log

/-- Take the events logged so far off the stage. -/
def drain (s : Session) : Session :=
  { s with stage := s.stage.drain.2, drained := s.drained ++ s.stage.drain.1 }

/-- Apply the first of the drained events, against the stage as it is now. -/
def apply (s : Session) (count : Nat) : Session :=
  { s with
    drained := s.drained.drop count
    imager := s.imager.applyEvents s.stage (s.drained.take count) }

/-- **Deliver**: drain the stage and apply everything drained. -/
def deliver (s : Session) : Session :=
  s.drain.apply s.drain.drained.length

/-- What can happen in a session. -/
inductive Action where
  | edit (e : Edit)
  | deliver
  /-- Drain without applying. -/
  | drain
  /-- Apply some of what was drained earlier. -/
  | apply (count : Nat)
  | populate
  | sync
  | setTime (time : TimeCode)

/-- The session after an action. -/
def act (s : Session) : Action → Session
  | .edit e => { s with stage := s.stage.edit e }
  | .deliver => s.deliver
  | .drain => s.drain
  | .apply count => s.apply count
  | .populate => { s with imager := (s.imager.populate s.stage).2 }
  | .sync => { s with imager := (s.imager.sync s.stage).2 }
  | .setTime time => { s with imager := s.imager.setTime time }

/-- The calls that an action makes of the imager. -/
def calls (s : Session) : Action → List Imager.Operation
  | .edit _ => []
  | .deliver => [.apply s.drain.stage s.pending]
  | .drain => []
  | .apply count => [.apply s.stage (s.drained.take count)]
  | .populate => [.populate s.stage]
  | .sync => [.sync s.stage]
  | .setTime time => [.setTime time]

/-- **The imager of a session is run**: an action has no other effect on it than by its calls. -/
theorem imager_act (s : Session) (a : Action) :
    (s.act a).imager = s.imager.run (s.calls a) := by
  cases a with
  | deliver =>
    rw [act, deliver, apply, List.take_length]
    rfl
  | _ => rfl

/-- The start of a session: a fresh imager is populated, and what was logged before is dropped. -/
def begin (registry : Registry) (supported : List String) (caches : CacheBank) (stage : Stage) :
    Session where
  stage := stage.drain.2
  drained := []
  imager := ((Imager.fresh registry supported caches).populate stage.drain.2).2

/-- **What a session can come to** by any actions in any order, if every move in time is one of
those allowed. -/
inductive Reaches (moves : Session → TimeCode → Prop) (start : Session) : Session → Prop
  | start : Reaches moves start start
  | act {s : Session} (h : Reaches moves start s) (a : Action)
      (hmove : ∀ time, a = .setTime time → moves s time) : Reaches moves start (s.act a)

theorem Reaches.mono {moves moves' : Session → TimeCode → Prop} {start s : Session}
    (hmoves : ∀ s time, moves s time → moves' s time) (h : Reaches moves start s) :
    Reaches moves' start s := by
  induction h with
  | start => exact .start
  | act h a hmove ih => exact .act ih a fun time ha => hmoves _ time (hmove time ha)

end Session

end CapsuleImaging
