import CapsuleImaging.Proofs.Scene.Edit

/-!
# What the log tells of many edits

A way of many edits is told edit by edit (`Recounted`). Along the way a prim may be removed and
defined again, or an attribute cleared and set again, and in the end only what no event is about
is sure to be as before. Edits of attributes of a single prim tell of nothing besides these
(`recounted_attributes`).
-/

namespace CapsuleImaging

namespace Stage

/-- The stage after some edits, one after another. -/
def editAll (s : Stage) (edits : List Edit) : Stage :=
  edits.foldl edit s

/-- **What events tell of a way from one stage to another**, each part of it being told. -/
inductive Recounted : Stage → Stage → List StageEvent → Prop
  | refl (s : Stage) : Recounted s s []
  | step {s t u : Stage} {events later : List StageEvent} (first : Told s t events)
      (rest : Recounted t u later) : Recounted s u (events ++ later)

namespace Recounted

variable {s t : Stage} {events : List StageEvent} {p : PrimPath}

/-- Nothing is told that was not logged, and the earlier log stays in front. -/
theorem log (h : Recounted s t events) : t.log = s.log ++ events := by
  induction h with
  | refl s => exact (List.append_nil _).symm
  | step first _ ih => rw [ih, first.log, List.append_assoc]

/-- A prim that no event resets is there as before, with its type. -/
theorem type (h : Recounted s t events) (hquiet : ∀ e ∈ events, ¬ e.Resets p) :
    t.prims[p]?.map (·.type) = s.prims[p]?.map (·.type) := by
  induction h with
  | refl s => rfl
  | step first _ ih =>
    have hlater := ih fun e he => hquiet e (List.mem_append_right _ he)
    have hfirst := first.type p fun e he => hquiet e (List.mem_append_left _ he)
    exact hlater.trans hfirst

/-- An attribute that no event is about holds what it held. -/
theorem authored (h : Recounted s t events) (hquiet : ∀ e ∈ events, ¬ e.Resets p) {name : String}
    (hname : .changed p name ∉ events) : t.authored? p name = s.authored? p name := by
  induction h with
  | refl s => rfl
  | step first _ ih =>
    have hlater := ih (fun e he => hquiet e (List.mem_append_right _ he))
      fun he => hname (List.mem_append_right _ he)
    have hfirst := first.authored p name (fun e he => hquiet e (List.mem_append_left _ he))
      fun he => hname (List.mem_append_left _ he)
    exact hlater.trans hfirst

end Recounted

/-- **Every run of edits is told in full.** -/
theorem recounted_editAll (s : Stage) (edits : List Edit) :
    ∃ events, Recounted s (s.editAll edits) events := by
  induction edits generalizing s with
  | nil => exact ⟨[], .refl s⟩
  | cons e rest ih =>
    obtain ⟨events, htold⟩ := told_edit s e
    obtain ⟨later, hrest⟩ := ih (s.edit e)
    exact ⟨events ++ later, .step htold hrest⟩

/-- Edits of attributes of one prim tell of these attributes only. -/
theorem recounted_attributes (s : Stage) {path : PrimPath} {names : List String}
    {edits : List Edit}
    (hedits : ∀ e ∈ edits, ∃ name ∈ names, e.attribute? = some (path, name)) :
    ∃ events, Recounted s (s.editAll edits) events ∧
      ∀ event ∈ events, ∃ name ∈ names, event = .changed path name := by
  induction edits generalizing s with
  | nil => exact ⟨[], .refl s, fun event he => by cases he⟩
  | cons e rest ih =>
    obtain ⟨name, hname, hattribute⟩ := hedits e List.mem_cons_self
    obtain ⟨events, htold, hevents⟩ := told_attribute s hattribute
    obtain ⟨later, hrest, hlater⟩ :=
      ih (s.edit e) fun other hother => hedits other (List.mem_cons_of_mem _ hother)
    refine ⟨events ++ later, .step htold hrest, fun event hevent => ?_⟩
    rcases List.mem_append.1 hevent with hfirst | hlast
    · exact ⟨name, hname, hevents event hfirst⟩
    · exact hlater event hlast

end Stage

end CapsuleImaging
