import CapsuleImaging.Proofs.Scene.History
import CapsuleImaging.Proofs.Scene.Piecewise

/-!
# Samples under edits

What is set for an attribute at times is noted, the newest first, in `Stage.notes`: a note stays
until the attribute is cleared or its prim removed. The attribute itself keeps less. It has one
sample to a time, in order of time, and a sample that is set takes the place of the one before. Yet
it tells the same: at each time it has the value of the newest note (`Kept`). An edit keeps this
(`Kept.edit`), since the new sample goes where the order wants it, and so a run of edits does, if
every sample is set at a number.

With the samples in order, what was set is also what is read (`samples_last_set`).
-/

namespace CapsuleImaging

open Std

/-- Whether an edit sets no sample at what is no number. -/
def Edit.IsTimed : Edit → Prop
  | .setSample _ _ time _ => ¬ time.isNaN
  | _ => True

instance : DecidablePred Edit.IsTimed
  | .define _ _ => isTrue trivial
  | .remove _ => isTrue trivial
  | .setFallback _ _ _ => isTrue trivial
  | .setSample _ _ time _ => inferInstanceAs (Decidable (¬ time.isNaN))
  | .setClips _ _ _ => isTrue trivial
  | .clear _ _ => isTrue trivial

namespace Attribute

variable {samples : List (Float × Value)} {time : Float} {value : Value}

/-- The value that was set at a time, by the first of some samples that is at that time. -/
def sampleAt? (samples : List (Float × Value)) (time : Float) : Option Value :=
  (samples.find? (·.1 == time)).map (·.2)

theorem sampleAt?_cons (s : Float × Value) (samples : List (Float × Value)) (time : Float) :
    sampleAt? (s :: samples) time = if s.1 == time then some s.2 else sampleAt? samples time := by
  rw [sampleAt?, List.find?_cons, sampleAt?]
  cases s.1 == time <;> rfl

theorem sampleAt?_insertByScan (samples : List (Float × Value)) (other : Float) :
    sampleAt? (insertByScan time value samples) other =
      if time == other then some value else sampleAt? samples other := by
  induction samples with
  | nil => rw [insertByScan, sampleAt?_cons]
  | cons s rest ih =>
    obtain ⟨t, v⟩ := s
    rw [insertByScan]
    split
    · next hlt =>
      rw [sampleAt?_cons, ih, sampleAt?_cons]
      -- a sample that is earlier is at another time
      by_cases hother : time == other
      · have hne : ¬ (t == other) := fun hs =>
          Moment.not_beq_of_lt hlt (Moment.beq_trans hs (Moment.beq_symm hother))
        simp only [hother, hne, if_true, if_false, Bool.false_eq_true]
      · simp only [hother, if_false, Bool.false_eq_true]
    · next hlt =>
      split
      · next hsame =>
        have hother : (t == other) = (time == other) := by
          rw [Bool.eq_iff_iff]
          exact ⟨Moment.beq_trans (Moment.beq_symm hsame), Moment.beq_trans hsame⟩
        rw [sampleAt?_cons, sampleAt?_cons, hother]
        by_cases hnow : time == other
        · simp only [hnow, if_true]
        · simp only [hnow, if_false, Bool.false_eq_true]
      · rw [sampleAt?_cons]

/-- **A new sample stands for its time**, and every other time keeps what it had. -/
theorem sampleAt?_insertSample (h : Chronological samples) (other : Float) :
    sampleAt? (insertSample time value samples) other =
      if time == other then some value else sampleAt? samples other := by
  rw [← insertByScan_eq h, sampleAt?_insertByScan]

theorem mem_insertByScan {s : Float × Value} (hs : s ∈ insertByScan time value samples) :
    s.1 = time ∨ ∃ u ∈ samples, u.1 = s.1 := by
  induction samples with
  | nil =>
    rw [insertByScan, List.mem_singleton] at hs
    exact Or.inl (congrArg Prod.fst hs)
  | cons u rest ih =>
    rw [insertByScan] at hs
    grind

/-- **A sample that is set at a number leaves the samples in order.** -/
theorem Chronological.insertSample (h : Chronological samples) (htime : ¬ time.isNaN) :
    Chronological (insertSample time value samples) := by
  rw [← insertByScan_eq h]
  constructor
  · intro s hs
    rcases mem_insertByScan hs with heq | ⟨u, hu, heq⟩
    · rwa [heq]
    · rw [← heq]
      exact h.number u hu
  · obtain ⟨hnumber, hascending⟩ := h
    induction samples with
    | nil => exact List.pairwise_singleton _ _
    | cons s rest ih =>
      obtain ⟨hfirst, hrest⟩ := List.pairwise_cons.1 hascending
      rw [insertByScan]
      split
      · next hlt =>
        refine List.pairwise_cons.2 ⟨fun x hx => ?_, ?_⟩
        · rcases mem_insertByScan hx with heq | ⟨u, hu, heq⟩
          · rwa [heq]
          · rw [← heq]
            exact hfirst u hu
        · exact ih (fun u hu => hnumber u (List.mem_cons_of_mem _ hu)) hrest
      · next hlt =>
        split
        · exact List.pairwise_cons.2 ⟨hfirst, hrest⟩
        · next hne =>
          have hlater : time < s.1 :=
            Moment.lt_of_not_lt_of_not_beq (hnumber s List.mem_cons_self) htime hlt hne
          refine List.pairwise_cons.2 ⟨fun x hx => ?_, hascending⟩
          rcases List.mem_cons.1 hx with rfl | hin
          · exact hlater
          · exact Moment.lt_trans hlater (hfirst x hin)

/-- In order, what was set at a time is what is read there. -/
theorem Chronological.sampled?_of_sampleAt? (h : Chronological samples)
    (hat : sampleAt? samples time = some value) : sampled? samples time = some value := by
  obtain ⟨s, hfound, rfl⟩ := Option.map_eq_some_iff.1 hat
  have htime := List.find?_some hfound
  exact sampled?_hit h (List.mem_of_find?_eq_some hfound) htime

end Attribute

namespace Stage

open Attribute

/-- The samples of an attribute; none where nothing is authored. -/
def samples (s : Stage) (path : PrimPath) (name : String) : List (Float × Value) :=
  ((s.authored? path name).getD {}).samples

variable {s : Stage} {path q : PrimPath} {name n : String} {time : Float} {value : Value}

theorem authored?_of_notMem (h : path ∉ s.prims) : s.authored? path name = none := by
  rw [authored?, ExtTreeMap.getElem?_eq_none h, Option.bind_none]

/-! ## Samples after an edit -/

theorem samples_define (type : String) :
    (s.define q type).samples path name = s.samples path name := by
  have hauthored : (s.define q type).authored? path name = s.authored? path name := by
    rw [authored?, prims_define, authored?]
    by_cases hpath : q = path
    · subst hpath
      rw [if_pos rfl]
      cases s.prims[q]? <;> simp
    · rw [if_neg hpath]
  rw [samples, hauthored, samples]

theorem samples_remove : (s.remove q).2.samples path name =
    if path ∈ (s.remove q).2.prims then s.samples path name else [] := by
  split
  · next hkept =>
    have hsame : (s.remove q).2.prims[path]? = s.prims[path]? := by
      cases hprim : s.prims[q]? with
      | none => rw [remove_of_absent hprim]
      | some prim =>
        rw [ExtTreeMap.mem_iff_isSome_getElem?, prims_remove hprim] at hkept
        rw [prims_remove hprim]
        split at hkept
        · cases hkept
        · next hnot => rw [if_neg hnot]
    rw [samples, authored?, hsame, samples, authored?]
  · next hgone =>
    rw [samples, authored?_of_notMem hgone]
    rfl

theorem exists_write_eq_ok (h : path ∈ s.prims) (change : Attribute → Attribute) :
    ∃ t, s.write path name change = .ok t := by
  obtain ⟨prim, hprim⟩ := Option.isSome_iff_exists.1 (ExtTreeMap.mem_iff_isSome_getElem?.1 h)
  simp [write, hprim]

theorem samples_write (change : Attribute → Attribute) :
    ((s.write q n change).toOption.getD s).samples path name =
      if q = path ∧ n = name ∧ path ∈ s.prims then
        (change ((s.authored? path name).getD {})).samples
      else s.samples path name := by
  by_cases hprim : q ∈ s.prims
  · obtain ⟨t, hwrite⟩ := exists_write_eq_ok hprim change
    rw [hwrite, Except.toOption, Option.getD_some, samples, authored?_write hwrite]
    by_cases htarget : q = path ∧ n = name
    · obtain ⟨rfl, rfl⟩ := htarget
      simp [hprim]
    · rw [if_neg htarget, if_neg fun h => htarget ⟨h.1, h.2.1⟩, samples]
  · have habsent : s.prims[q]? = none := ExtTreeMap.getElem?_eq_none hprim
    rw [write_of_absent habsent, if_neg]
    · rfl
    · rintro ⟨rfl, -, hin⟩
      exact hprim hin

theorem samples_clear : (((s.clear q n).toOption.map (·.2)).getD s).samples path name =
    if q = path ∧ n = name then [] else s.samples path name := by
  have hauthored : (((s.clear q n).toOption.map (·.2)).getD s).authored? path name =
      if q = path ∧ n = name then none else s.authored? path name := by
    unfold clear authored?
    cases hprim : s.prims[q]? with
    | none => grind [Except.toOption]
    | some prim =>
      dsimp only
      split <;> simp only [Except.toOption, Option.map_some, Option.getD_some] <;> grind
  rw [samples, hauthored, samples]
  split <;> rfl

/-! ## What was set -/

/-- What is noted of the samples of an attribute after an edit, the newest first. -/
def note (s : Stage) (path : PrimPath) (name : String) (notes : List (Float × Value)) :
    Edit → List (Float × Value)
  | .define _ _ => notes
  | .remove q => if path ∈ (s.remove q).2.prims then notes else []
  | .setFallback _ _ _ => notes
  | .setSample q n time value =>
    if q = path ∧ n = name ∧ path ∈ s.prims then (time, value) :: notes else notes
  | .setClips _ _ _ => notes
  | .clear q n => if q = path ∧ n = name then [] else notes

/-- What is noted in the course of some edits. -/
def notesFrom (s : Stage) (path : PrimPath) (name : String) (notes : List (Float × Value)) :
    List Edit → List (Float × Value)
  | [] => notes
  | e :: rest => (s.edit e).notesFrom path name (s.note path name notes e) rest

/-- **The samples set for an attribute** by some edits, from the empty stage on, since it was last
cleared or its prim last removed, the newest first. -/
def notes (edits : List Edit) (path : PrimPath) (name : String) : List (Float × Value) :=
  empty.notesFrom path name [] edits

/-- **An attribute tells what was set for it**: its samples are in order, and have at each time the
value that was set last. -/
structure Kept (s : Stage) (path : PrimPath) (name : String) (notes : List (Float × Value)) :
    Prop where
  chronological : Chronological (s.samples path name)
  newest : ∀ time, sampleAt? (s.samples path name) time = sampleAt? notes time

variable {noted : List (Float × Value)}

theorem kept_nil (h : s.samples path name = []) : s.Kept path name [] where
  chronological := h ▸ .nil
  newest time := by rw [h]

theorem Kept.congr {t : Stage} (h : s.Kept path name noted)
    (hsamples : t.samples path name = s.samples path name) : t.Kept path name noted :=
  ⟨hsamples ▸ h.chronological, hsamples ▸ h.newest⟩

/-- **An edit leaves an attribute telling what was set for it.** -/
theorem Kept.edit (h : s.Kept path name noted) {e : Edit} (he : e.IsTimed) :
    (s.edit e).Kept path name (s.note path name noted e) := by
  cases e with
  | define q type => exact h.congr (samples_define type)
  | remove q =>
    rw [note]
    by_cases hkept : path ∈ (s.remove q).2.prims
    · rw [if_pos hkept]
      exact h.congr (samples_remove.trans (if_pos hkept))
    · rw [if_neg hkept]
      exact kept_nil (samples_remove.trans (if_neg hkept))
  | setFallback q n value =>
    exact h.congr ((samples_write _).trans (by split <;> rfl))
  | setClips q n clips =>
    exact h.congr ((samples_write _).trans (by split <;> rfl))
  | setSample q n time value =>
    rw [note]
    by_cases htarget : q = path ∧ n = name ∧ path ∈ s.prims
    · rw [if_pos htarget]
      have hsamples : (s.edit (.setSample q n time value)).samples path name =
          insertSample time value (s.samples path name) :=
        (samples_write _).trans (if_pos htarget)
      constructor
      · rw [hsamples]
        exact h.chronological.insertSample he
      · intro other
        rw [hsamples, sampleAt?_insertSample h.chronological, h.newest, sampleAt?_cons]
    · rw [if_neg htarget]
      exact h.congr ((samples_write _).trans (if_neg htarget))
  | clear q n =>
    rw [note]
    by_cases htarget : q = path ∧ n = name
    · rw [if_pos htarget]
      exact kept_nil (samples_clear.trans (if_pos htarget))
    · rw [if_neg htarget]
      exact h.congr (samples_clear.trans (if_neg htarget))

/-- And so does a run of edits. -/
theorem Kept.editAll {edits : List Edit} (h : s.Kept path name noted)
    (htimed : ∀ e ∈ edits, e.IsTimed) :
    (s.editAll edits).Kept path name (s.notesFrom path name noted edits) := by
  induction edits generalizing s noted with
  | nil => exact h
  | cons e rest ih =>
    have hfirst := h.edit (htimed e List.mem_cons_self)
    exact ih hfirst fun later hlater => htimed later (List.mem_cons_of_mem _ hlater)

/-! ## Reading back -/

/-- Samples are those of what is authored. -/
theorem exists_authored_of_mem {sample : Float × Value} (h : sample ∈ s.samples path name) :
    ∃ a, s.authored? path name = some a ∧ s.samples path name = a.samples := by
  rw [samples] at h
  cases ha : s.authored? path name with
  | none =>
    rw [ha] at h
    cases h
  | some a => exact ⟨a, rfl, by rw [samples, ha, Option.getD_some]⟩

/-- **In order, what was set at a time is the attribute's value there.** -/
theorem valueAt_of_sampleAt? (h : Chronological (s.samples path name))
    (hat : sampleAt? (s.samples path name) time = some value) :
    s.valueAt path name (.at time) = .ok value := by
  obtain ⟨sample, hfound, -⟩ := Option.map_eq_some_iff.1 hat
  obtain ⟨a, ha, hsamples⟩ := exists_authored_of_mem (List.mem_of_find?_eq_some hfound)
  have hresolve : a.resolve (.at time) = some value := by
    rw [resolve, ← hsamples, h.sampled?_of_sampleAt? hat, Option.some_or]
  obtain ⟨prim, hprim, hattribute⟩ := Option.bind_eq_some_iff.1 ha
  simp only [valueAt, hprim, hattribute, hresolve]

/-- **The samples of an attribute are a map in order of time.** After any edits that set samples at
numbers, they ascend strictly, so that there is one to a time at most, and have at each time just
the value set last since the attribute was cleared or its prim removed. So a sample that is set is
read back at its time, and at every other time with a sample the value is as before. For such
attributes it comes to the same if the samples are run along. -/
theorem samples_last_set (edits : List Edit) (htimed : ∀ e ∈ edits, e.IsTimed) (path : PrimPath)
    (name : String) :
    Chronological ((empty.editAll edits).samples path name) ∧
    (∀ time, sampleAt? ((empty.editAll edits).samples path name) time =
      sampleAt? (notes edits path name) time) ∧
    (∀ (time : Float) (value : Value) (t : Stage), ¬ time.isNaN →
      (empty.editAll edits).setSample path name time value = .ok t →
        t.valueAt path name (.at time) = .ok value ∧
        ∀ other : Float, (sampleAt? ((empty.editAll edits).samples path name) other).isSome →
          ¬ (time == other) → t.valueAt path name (.at other) =
            (empty.editAll edits).valueAt path name (.at other)) ∧
    ∀ a, (empty.editAll edits).authored? path name = some a →
      (∀ code, a.resolveByScan code = a.resolve code) ∧
      ∀ time value, a.setSampleByScan time value = a.setSample time value := by
  have hkept : (empty.editAll edits).Kept path name (notes edits path name) :=
    Kept.editAll (kept_nil rfl) htimed
  refine ⟨hkept.chronological, hkept.newest, fun time value t htime hset => ?_, fun a ha => ?_⟩
  · have hsamples : t.samples path name =
        insertSample time value ((empty.editAll edits).samples path name) := by
      rw [samples, authored?_write hset, if_pos ⟨rfl, rfl⟩, Option.getD_some, samples]
      rfl
    have hordered : Chronological (t.samples path name) :=
      hsamples ▸ hkept.chronological.insertSample htime
    refine ⟨valueAt_of_sampleAt? hordered ?_, fun other hother hne => ?_⟩
    · rw [hsamples, sampleAt?_insertSample hkept.chronological, if_pos (Moment.beq_refl htime)]
    · -- a sample at another time is read before and after
      obtain ⟨held, hheld⟩ := Option.isSome_iff_exists.1 hother
      have hafter : sampleAt? (t.samples path name) other = some held := by
        rw [hsamples, sampleAt?_insertSample hkept.chronological, if_neg hne, hheld]
      rw [valueAt_of_sampleAt? hordered hafter, valueAt_of_sampleAt? hkept.chronological hheld]
  · have hordered : Chronological a.samples := by
      have hsame : (empty.editAll edits).samples path name = a.samples := by
        rw [samples, ha, Option.getD_some]
      exact hsame ▸ hkept.chronological
    exact ⟨resolveByScan_eq hordered, setSampleByScan_eq hordered⟩

/-- Heights of a capsule at several times, the last at a zero that had one. The capsule was removed
and defined again before. -/
def rewriting : List Edit :=
  [.define ⟨"/c"⟩ "Capsule", .setSample ⟨"/c"⟩ "height" 7 (.double 1), .remove ⟨"/c"⟩,
    .define ⟨"/c"⟩ "Capsule", .setSample ⟨"/c"⟩ "height" 10 (.double 2),
    .setSample ⟨"/c"⟩ "height" 0 (.double 3), .setSample ⟨"/c"⟩ "height" 5 (.double 4),
    .setSample ⟨"/c"⟩ "height" (-0.0) (.double 5)]

theorem samples_last_set_rewriting :
    Chronological ((empty.editAll rewriting).samples ⟨"/c"⟩ "height") ∧
      sampleAt? ((empty.editAll rewriting).samples ⟨"/c"⟩ "height") 0 = some (.double 5) ∧
      sampleAt? ((empty.editAll rewriting).samples ⟨"/c"⟩ "height") 7 = none ∧
      ∃ t, (empty.editAll rewriting).setSample ⟨"/c"⟩ "height" 10 (.double 6) = .ok t ∧
        t.valueAt ⟨"/c"⟩ "height" (.at 10) = .ok (.double 6) ∧
        t.valueAt ⟨"/c"⟩ "height" (.at 5) =
          (empty.editAll rewriting).valueAt ⟨"/c"⟩ "height" (.at 5) := by
  have htimed : ∀ e ∈ rewriting, e.IsTimed := by decide +kernel
  obtain ⟨hordered, hnewest, hread, -⟩ := samples_last_set rewriting htimed ⟨"/c"⟩ "height"
  have hprim : PrimPath.mk "/c" ∈ (empty.editAll rewriting).prims := by decide +kernel
  obtain ⟨t, ht⟩ := exists_write_eq_ok hprim (·.setSample 10 (.double 6))
  have hback := hread 10 (.double 6) t (by decide +kernel) ht
  refine ⟨hordered, ?_, ?_, t, ht, hback.1, hback.2 5 (by decide +kernel) (by decide +kernel)⟩
  · rw [hnewest]
    decide +kernel
  · rw [hnewest]
    decide +kernel

end Stage

end CapsuleImaging
