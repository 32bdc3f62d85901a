import CapsuleImaging.Proofs.Render.Notices

/-!
# Events of different prims

An event touches the cell of its own prim and no other, so what some events make of a prim is what
those of them about it make of it, in their order (`Imager.cell_applyEvents`). If two lists of
events are about different prims, interleaving them leaves the events of each prim in order, and so
it does not matter how they are interleaved.
-/

namespace CapsuleImaging

open Std

/-- **Two lists interleaved**: the elements of both, those of each list in their order. -/
inductive Interleaves {α : Type} : List α → List α → List α → Prop
  | nil : Interleaves [] [] []
  /-- The next element is of the first list. -/
  | left {xs ys merged : List α} (x : α) (h : Interleaves xs ys merged) :
      Interleaves (x :: xs) ys (x :: merged)
  /-- The next element is of the second list. -/
  | right {xs ys merged : List α} (y : α) (h : Interleaves xs ys merged) :
      Interleaves xs (y :: ys) (y :: merged)

namespace Interleaves

variable {α : Type} {xs ys merged : List α}

theorem swap (h : Interleaves xs ys merged) : Interleaves ys xs merged := by
  induction h with
  | nil => exact .nil
  | left x _ ih => exact .right x ih
  | right y _ ih => exact .left y ih

/-- **Only one list passes the filter**: then it passes as if the other were not there. -/
theorem filter_eq (h : Interleaves xs ys merged) {p : α → Bool} (hp : ∀ y ∈ ys, ¬ p y) :
    merged.filter p = xs.filter p := by
  induction h with
  | nil => rfl
  | left x _ ih => rw [List.filter_cons, List.filter_cons, ih hp]
  | right y _ ih =>
    obtain ⟨hy, hys⟩ := List.forall_mem_cons.1 hp
    rw [List.filter_cons_of_neg hy, ih hys]

end Interleaves

namespace Imager

variable {im im' : Imager} {stage : Stage} {xs ys merged merged' : List StageEvent} {q : PrimPath}

/-- **What some events make of a prim** is what those about it make of it, in their order. -/
theorem cell_applyEvents (im : Imager) (stage : Stage) (events : List StageEvent) (q : PrimPath) :
    (im.applyEvents stage events).cell q =
      (events.filter fun e => e.path = q).foldl (fun c e => Cell.take im.setting stage e c)
        (im.cell q) := by
  induction events generalizing im with
  | nil => rfl
  | cons event rest ih =>
    refine (ih (im.applyEvent stage event)).trans ?_
    rw [setting_applyEvent, cell_applyEvent]
    by_cases hpath : event.path = q
    · rw [if_pos hpath, List.filter_cons_of_pos (by simpa using hpath), List.foldl_cons]
    · rw [if_neg hpath, List.filter_cons_of_neg (by simpa using hpath)]

/-- A prim without an event stays as it is. -/
theorem cell_applyEvents_of_ne {events : List StageEvent} (h : ∀ e ∈ events, e.path ≠ q) :
    (im.applyEvents stage events).cell q = im.cell q := by
  have hnone : (events.filter fun e => e.path = q) = [] :=
    List.filter_eq_nil_iff.2 fun e he => by simpa using h e he
  rw [cell_applyEvents, hnone, List.foldl_nil]

/-- **A prim of one list only** is as that list alone leaves it. -/
theorem cell_applyEvents_of_interleaves (h : Interleaves xs ys merged)
    (hq : ∀ y ∈ ys, y.path ≠ q) :
    (im.applyEvents stage merged).cell q = (im.applyEvents stage xs).cell q := by
  rw [cell_applyEvents, cell_applyEvents, h.filter_eq fun y hy => by simpa using hq y hy]

/-- What is held prim by prim is all that is held, but for the types that the index supports. -/
theorem held_eq (hsupported : im.index.supported = im'.index.supported)
    (hcell : ∀ q, im.cell q = im'.cell q) : im.entries = im'.entries ∧ im.index = im'.index := by
  refine ⟨ExtTreeMap.ext_getElem? fun q => congrArg Prod.fst (hcell q), ?_⟩
  have hrprims : im.index.rprims = im'.index.rprims :=
    ExtTreeMap.ext_getElem? fun q => congrArg Prod.snd (hcell q)
  exact congrArg₂ RenderIndex.mk hsupported hrprims

/-- **Events of different prims commute.** If two lists of events are about different prims, an
imager that takes them in interleaved, in whichever way, comes to the same entries and the same
index; and a prim that no event is about keeps its entry and its rprim. -/
theorem interleavings_agree (im : Imager) (stage : Stage) (xs ys : List StageEvent)
    (hdisjoint : ∀ x ∈ xs, ∀ y ∈ ys, x.path ≠ y.path) :
    (∀ merged merged', Interleaves xs ys merged → Interleaves xs ys merged' →
      (im.applyEvents stage merged).entries = (im.applyEvents stage merged').entries ∧
        (im.applyEvents stage merged).index = (im.applyEvents stage merged').index) ∧
    ∀ merged, Interleaves xs ys merged → ∀ q : PrimPath,
      (∀ x ∈ xs, x.path ≠ q) → (∀ y ∈ ys, y.path ≠ q) →
      (im.applyEvents stage merged).entries[q]? = im.entries[q]? ∧
        (im.applyEvents stage merged).index.rprims[q]? = im.index.rprims[q]? := by
  refine ⟨fun merged merged' h h' => held_eq ?_ fun q => ?_, fun merged h q hxs hys => ?_⟩
  · have hsetting := (setting_applyEvents im stage merged).trans
      (setting_applyEvents im stage merged').symm
    exact congrArg Setting.supported hsetting
  · -- a prim has events of one of the lists at most
    by_cases hq : ∃ y ∈ ys, y.path = q
    · obtain ⟨y, hy, rfl⟩ := hq
      have hxs : ∀ x ∈ xs, x.path ≠ y.path := fun x hx => hdisjoint x hx y hy
      rw [cell_applyEvents_of_interleaves h.swap hxs, cell_applyEvents_of_interleaves h'.swap hxs]
    · have hys : ∀ y ∈ ys, y.path ≠ q := fun y hy hpath => hq ⟨y, hy, hpath⟩
      rw [cell_applyEvents_of_interleaves h hys, cell_applyEvents_of_interleaves h' hys]
  · have hcell : (im.applyEvents stage merged).cell q = im.cell q :=
      (cell_applyEvents_of_interleaves h hys).trans (cell_applyEvents_of_ne hxs)
    exact Prod.mk.inj hcell

/-- One capsule is defined anew and edited, the other is edited and removed, in two orders. -/
theorem interleavings_agree_growing :
    let im := (fresh Session.oneType [meshType] .empty).run [.populate growing]
    let xs : List StageEvent := [.defined ⟨"/a"⟩ "Capsule", .changed ⟨"/a"⟩ "height"]
    let ys : List StageEvent := [.changed ⟨"/b"⟩ "radius", .removed ⟨"/b"⟩]
    (im.applyEvents growing (xs ++ ys)).entries = (im.applyEvents growing
      [.changed ⟨"/b"⟩ "radius", .defined ⟨"/a"⟩ "Capsule", .removed ⟨"/b"⟩,
        .changed ⟨"/a"⟩ "height"]).entries ∧
    (im.applyEvents growing (xs ++ ys)).entries.keys = [⟨"/a"⟩] := by
  intro im xs ys
  have hagree := interleavings_agree im growing xs ys (by decide +kernel)
  have happended : Interleaves xs ys (xs ++ ys) := .left _ (.left _ (.right _ (.right _ .nil)))
  refine ⟨(hagree.1 _ _ happended (.right _ (.left _ (.right _ (.left _ .nil))))).1, ?_⟩
  decide +kernel

end Imager

end CapsuleImaging
