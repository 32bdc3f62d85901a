import CapsuleImaging.Proofs.Scene.Chronology

/-!
# Samples found by halving

Where an attribute is read or written, the place in question is found by halving. The halves are
told apart by their middle alone, so in a list without order the place says little. In a list where
those that pass the test stand in front it is the one behind them (`partitionPoint_append`).

That is also where a run along the samples stops. So reading and writing could do without halving
(`resolveByScan`, `setSampleByScan`), and where the samples are chronological this comes to the same
(`resolveByScan_eq`, `setSampleByScan_eq`).
-/

namespace CapsuleImaging

namespace Halving

/-- **Halving finds the last place that passes**, or stays at the first if none does. -/
theorem lastPassed_eq {test : Nat → Bool} {first count place : Nat} (hcount : 0 < count)
    (hpass : ∀ i, i < place → test i) (hfail : ∀ i, place ≤ i → i < first + count → ¬ test i)
    (hfirst : first ≤ place) (hlast : place ≤ first + count) :
    lastPassed test first count = max first (place - 1) := by
  fun_induction lastPassed test first count with
  | case1 first count hmany hmiddle ih =>
    -- the middle passes, so the place is behind it
    have hbehind : first + count / 2 < place := by
      by_contra hnot
      exact hfail _ (by omega) (by omega) hmiddle
    rw [ih (by omega) (fun i hi hlt => hfail i hi (by omega)) (by omega) (by omega)]
    omega
  | case2 first count hmany hmiddle ih =>
    have hnot : place ≤ first + count / 2 := by
      by_contra hbehind
      exact hmiddle (hpass _ (by omega))
    exact ih (by omega) (fun i hi hlt => hfail i hi (by omega)) hfirst (by omega)
  | case3 first count hone => omega

variable {α : Type} {p : α → Prop} [DecidablePred p] {front back : List α}

/-- **The point of partition is behind those that pass**, where these stand in front. -/
theorem partitionPoint_append (hfront : ∀ x ∈ front, p x) (hback : ∀ x ∈ back, ¬ p x) :
    partitionPoint (fun x => p x) (front ++ back) = front.length := by
  have hpass : ∀ i, i < front.length → (front ++ back)[i]?.any (fun x => p x) := by
    intro i hi
    rw [List.getElem?_append_left hi, List.getElem?_eq_getElem hi, Option.any_some]
    exact decide_eq_true (hfront _ (List.getElem_mem hi))
  have hfail : ∀ i, front.length ≤ i → ¬ (front ++ back)[i]?.any (fun x => p x) := by
    intro i hi
    rw [List.getElem?_append_right hi, Bool.not_eq_true, Option.any_eq_false]
    intro x hx
    exact decide_eq_false (hback x (List.mem_of_getElem? hx))
  rw [partitionPoint]
  rcases Nat.eq_zero_or_pos (front ++ back).length with hnone | hsome
  · obtain ⟨rfl, rfl⟩ := List.append_eq_nil_iff.1 (List.length_eq_zero_iff.1 hnone)
    simp [lastPassed]
  · rw [lastPassed_eq hsome hpass (fun i hi _ => hfail i hi) (Nat.zero_le _) (by simp),
      Nat.zero_max]
    -- the last that passes is just before the place, if there is one
    by_cases hfound : (front ++ back)[front.length - 1]?.any (fun x => p x)
    · have hpos : front.length - 1 < front.length := by
        by_contra hnot
        exact hfail _ (by omega) hfound
      rw [if_pos hfound]
      omega
    · have hempty : ¬ front.length - 1 < front.length := fun hlt => hfound (hpass _ hlt)
      rw [if_neg hfound]
      omega

end Halving

namespace Attribute

open Halving

variable {samples front back : List (Float × Value)} {time : Float} {value : Value}

/-! ## Reading -/

/-- What is read is told by those samples that have been reached and those that have not. -/
theorem sampled?_append (hfront : ∀ s ∈ front, s.1 ≤ time) (hback : ∀ s ∈ back, ¬ s.1 ≤ time) :
    sampled? (front ++ back) time = between? front back time := by
  rw [sampled?, partitionPoint_append hfront hback, List.take_left, List.drop_left]

/-- A run along samples stops at the first that has not been reached. -/
theorem runs_append (hfront : ∀ s ∈ front, s.1 ≤ time) (hback : ∀ s ∈ back, ¬ s.1 ≤ time) :
    (front ++ back).takeWhile (·.1 ≤ time) = front ∧
      (front ++ back).dropWhile (·.1 ≤ time) = back := by
  have hpass : ∀ s ∈ front, decide (s.1 ≤ time) = true := fun s hs => decide_eq_true (hfront s hs)
  rw [List.takeWhile_append_of_pos hpass, List.dropWhile_append_of_pos hpass]
  cases back with
  | nil => simp
  | cons first rest =>
    have hfail : ¬ first.1 ≤ time := hback first List.mem_cons_self
    simp [hfail]

theorem Chronological.exists_reached (h : Chronological samples) (time : Float) :
    ∃ front back, samples = front ++ back ∧ (∀ s ∈ front, s.1 ≤ time) ∧
      ∀ s ∈ back, ¬ s.1 ≤ time := by
  have hcut := h.exists_cut (fun s => decide (s ≤ time)) fun s u hlt hu =>
    decide_eq_true (Moment.le_of_lt (Moment.lt_of_lt_of_le hlt (of_decide_eq_true hu)))
  simpa only [decide_eq_true_eq] using hcut

/-- **The value of an attribute** at a time code, its samples being run along up to the time. -/
def resolveByScan (a : Attribute) : TimeCode → Option Value
  | .default => a.fallback
  | .at time =>
    (between? (a.samples.takeWhile (·.1 ≤ time)) (a.samples.dropWhile (·.1 ≤ time)) time).or
      a.fallback

/-- **Reading by a run along the samples comes to the same.** -/
theorem resolveByScan_eq {a : Attribute} (h : Chronological a.samples) (code : TimeCode) :
    a.resolveByScan code = a.resolve code := by
  cases code with
  | default => rfl
  | «at» time =>
    obtain ⟨front, back, hsamples, hfront, hback⟩ := h.exists_reached time
    obtain ⟨htake, hdrop⟩ := runs_append hfront hback
    rw [resolveByScan, resolve, hsamples, htake, hdrop, sampled?_append hfront hback]

/-! ## Writing -/

/-- A list of samples with one more, which is put where a run along them comes to its time. -/
def insertByScan (time : Float) (value : Value) : List (Float × Value) → List (Float × Value)
  | [] => [(time, value)]
  | (t, v) :: rest =>
    if t < time then (t, v) :: insertByScan time value rest
    else if t == time then (t, value) :: rest
    else (time, value) :: (t, v) :: rest

/-- A run along samples comes behind all that are earlier. -/
theorem insertByScan_append (hfront : ∀ s ∈ front, s.1 < time) :
    insertByScan time value (front ++ back) = front ++ insertByScan time value back := by
  induction front with
  | nil => rfl
  | cons s rest ih =>
    rw [List.cons_append, insertByScan, if_pos (hfront s List.mem_cons_self),
      ih fun u hu => hfront u (List.mem_cons_of_mem _ hu), List.cons_append]

/-- A new sample goes behind all that are earlier. -/
theorem insertSample_append (hfront : ∀ s ∈ front, s.1 < time) (hback : ∀ s ∈ back, ¬ s.1 < time) :
    insertSample time value (front ++ back) = front ++ insertByScan time value back := by
  rw [insertSample, partitionPoint_append hfront hback]
  cases back with
  | nil => simp [insertByScan]
  | cons next rest =>
    have hnext : ¬ next.1 < time := hback next List.mem_cons_self
    have hlookup : (front ++ next :: rest)[front.length]? = some next := by simp
    rw [insertByScan, if_neg hnext, hlookup, Option.any_some]
    by_cases hsame : next.1 == time
    · rw [if_pos hsame, if_pos hsame]
      exact List.modifyTailIdx_add _ 0 front _
    · rw [if_neg hsame, if_neg hsame]
      exact List.modifyTailIdx_add _ 0 front _

theorem Chronological.exists_earlier (h : Chronological samples) (time : Float) :
    ∃ front back, samples = front ++ back ∧ (∀ s ∈ front, s.1 < time) ∧
      ∀ s ∈ back, ¬ s.1 < time := by
  have hcut := h.exists_cut (fun s => decide (s < time)) fun s u hlt hu =>
    decide_eq_true (Moment.lt_trans hlt (of_decide_eq_true hu))
  simpa only [decide_eq_true_eq] using hcut

/-- **Inserting by a run along the samples comes to the same.** -/
theorem insertByScan_eq (h : Chronological samples) (time : Float) (value : Value) :
    insertByScan time value samples = insertSample time value samples := by
  obtain ⟨front, back, rfl, hfront, hback⟩ := h.exists_earlier time
  rw [insertByScan_append hfront, insertSample_append hfront hback]

/-- The attribute with a sample set, at a place that a run along the samples comes to. -/
def setSampleByScan (a : Attribute) (time : Float) (value : Value) : Attribute :=
  { a with samples := insertByScan time value a.samples }

theorem setSampleByScan_eq {a : Attribute} (h : Chronological a.samples) (time : Float)
    (value : Value) : a.setSampleByScan time value = a.setSample time value := by
  rw [setSampleByScan, insertByScan_eq h, setSample]

end Attribute

end CapsuleImaging
