import CapsuleImaging.Proofs.Scene.Elements
import CapsuleImaging.Proofs.Scene.Sampling

/-!
# Sound stages

What is to be relied on in a stage: its prims have paths that were read, and samples are in order of
time (`Stage.Sound`). The search for the samples around a time needs the one, and to find the prims
below another by their texts takes the other.

An edit keeps a stage sound, if what it defines has such a path and what it sets at a time is at a
number (`Sound.edit`). So a stage is sound that comes of such edits alone. Whether a stage is sound
can be computed.
-/

namespace CapsuleImaging

open Std

/-- Whether an edit defines no prim but at a path that was read from a text. -/
def Edit.IsNamed : Edit → Prop
  | .define path _ => path.Parsed
  | _ => True

namespace PrimPath

theorem parsed_iff {p : PrimPath} : p.Parsed ↔ parse p.text = .ok p := by
  refine ⟨?_, fun h => ⟨p.text, h⟩⟩
  rintro ⟨text, h⟩
  rwa [text_of_parse h]

instance : DecidablePred Parsed :=
  fun _ => decidable_of_iff _ parsed_iff.symm

end PrimPath

instance : DecidablePred Edit.IsNamed
  | .define path _ => inferInstanceAs (Decidable path.Parsed)
  | .remove _ => isTrue trivial
  | .setFallback _ _ _ => isTrue trivial
  | .setSample _ _ _ _ => isTrue trivial
  | .setClips _ _ _ => isTrue trivial
  | .clear _ _ => isTrue trivial

namespace Stage

open Attribute

/-- **What is to be relied on in a stage.** -/
structure Sound (s : Stage) : Prop where
  /-- Every prim has a path that was read from a text. -/
  named : ∀ p ∈ s.prims, p.Parsed
  /-- The samples of every attribute are in order of time. -/
  chronological : ∀ path name, Chronological (s.samples path name)

variable {s : Stage} {path p : PrimPath} {name : String}

theorem mem_paths : p ∈ s.paths ↔ p ∈ s.prims :=
  ExtTreeMap.mem_keys

/-- Samples are authored, under one of a prim's names. -/
theorem mem_attributeNames_of_samples (h : s.samples p name ≠ []) :
    p ∈ s.paths ∧ name ∈ s.attributeNames p := by
  have hauthored : s.authored? p name ≠ none := fun hnone => h (by rw [samples, hnone]; rfl)
  refine ⟨mem_paths.2 (not_imp_comm.1 authored?_of_notMem hauthored), ?_⟩
  exact mem_attributeNames_iff.2 (Option.isSome_iff_ne_none.2 hauthored)

/-- A stage is sound if what is there is. -/
theorem sound_iff : s.Sound ↔ ∀ p ∈ s.paths, p.Parsed ∧
    ∀ name ∈ s.attributeNames p, Chronological (s.samples p name) := by
  constructor
  · intro h p hp
    exact ⟨h.named p (mem_paths.1 hp), fun name _ => h.chronological p name⟩
  · intro h
    refine ⟨fun p hp => (h p (mem_paths.2 hp)).1, fun p name => ?_⟩
    by_cases hnone : s.samples p name = []
    · rw [hnone]
      exact .nil
    · obtain ⟨hp, hname⟩ := mem_attributeNames_of_samples hnone
      exact (h p hp).2 name hname

instance : DecidablePred Sound :=
  fun _ => decidable_of_iff _ sound_iff.symm

theorem sound_empty : empty.Sound where
  named _ h := absurd h ExtTreeMap.not_mem_empty
  chronological _ _ := .nil

/-! ## Edits -/

theorem mem_prims_define {type : String} :
    p ∈ (s.define path type).prims ↔ path = p ∨ p ∈ s.prims := by
  rw [ExtTreeMap.mem_iff_isSome_getElem?, prims_define, ExtTreeMap.mem_iff_isSome_getElem?]
  by_cases hpath : path = p
  · simp [hpath]
  · simp [hpath]

theorem mem_prims_of_mem_remove (h : p ∈ (s.remove path).2.prims) : p ∈ s.prims := by
  cases hprim : s.prims[path]? with
  | none => rwa [remove_of_absent hprim] at h
  | some prim =>
    rw [ExtTreeMap.mem_iff_isSome_getElem?, prims_remove hprim] at h
    split at h
    · cases h
    · exact ExtTreeMap.mem_iff_isSome_getElem?.2 h

/-- An edit of an attribute leaves the prims there that are. -/
theorem mem_prims_edit {e : Edit} (h : e.attribute? = some (path, name)) :
    p ∈ (s.edit e).prims ↔ p ∈ s.prims := by
  obtain ⟨events, htold, hevents⟩ := told_attribute s h
  have hquiet : ∀ event ∈ events, ¬ event.Resets p := fun event hin => by
    rw [hevents event hin]
    exact StageEvent.resets_changed
  have htype := congrArg Option.isSome (htold.type p hquiet)
  rw [Option.isSome_map, Option.isSome_map] at htype
  rw [ExtTreeMap.mem_iff_isSome_getElem?, htype, ExtTreeMap.mem_iff_isSome_getElem?]

/-- A prim is there after an edit only if it was before or is what the edit defines. -/
theorem parsed_of_mem_edit {e : Edit} (hnamed : ∀ q ∈ s.prims, q.Parsed) (he : e.IsNamed)
    (hp : p ∈ (s.edit e).prims) : p.Parsed := by
  cases htarget : e.attribute? with
  | some target => exact hnamed p ((mem_prims_edit htarget).1 hp)
  | none =>
    cases e with
    | define path type =>
      rcases mem_prims_define.1 hp with rfl | hbefore
      · exact he
      · exact hnamed p hbefore
    | remove path => exact hnamed p (mem_prims_of_mem_remove hp)
    | setFallback path name value => cases htarget
    | setSample path name time value => cases htarget
    | setClips path name clips => cases htarget
    | clear path name => cases htarget

/-- **An edit keeps a stage sound.** -/
theorem Sound.edit (h : s.Sound) {e : Edit} (hnamed : e.IsNamed) (htimed : e.IsTimed) :
    (s.edit e).Sound where
  named p hp := parsed_of_mem_edit h.named hnamed hp
  chronological path name := by
    have hkept : s.Kept path name (s.samples path name) :=
      ⟨h.chronological path name, fun _ => rfl⟩
    exact (hkept.edit htimed).chronological

/-- And so does a run of edits. -/
theorem Sound.editAll {edits : List Edit} (h : s.Sound) (hnamed : ∀ e ∈ edits, e.IsNamed)
    (htimed : ∀ e ∈ edits, e.IsTimed) : (s.editAll edits).Sound := by
  induction edits generalizing s with
  | nil => exact h
  | cons e rest ih =>
    have hfirst := h.edit (hnamed e List.mem_cons_self) (htimed e List.mem_cons_self)
    exact ih hfirst (fun later hlater => hnamed later (List.mem_cons_of_mem _ hlater))
      fun later hlater => htimed later (List.mem_cons_of_mem _ hlater)

end Stage

end CapsuleImaging
