import CapsuleImaging.Proofs.Scene.Moment
import Mathlib.Data.Int.Cast.Lemmas
import Mathlib.Data.List.TakeWhile
import Mathlib.Data.Prod.Lex
import Mathlib.Order.Compare

/-!
# Times in order

The numbers that are none aside, times are ordered: each has a **rank** in a linear order, and two
compare as their ranks do (`lt_iff`, `le_iff`, `beq_iff`). The two zeros have one rank, so that
numbers of one rank are the same moment. A NaN compares to nothing, so times that do compare are
numbers.

Samples are **chronological** if each is at a number and later than those before it. Samples that
are reached by a time are then in front of those that are not.
-/

namespace CapsuleImaging

namespace Moment

open Float.Model

/-- Where a number stands among the numbers: by its class, then by exponent and mantissa, both
downwards if it is negative. -/
def rank : UnpackedFloat → ℤ ×ₗ ℤ ×ₗ ℤ
  | .infinity .negative => toLex (-2, toLex (0, 0))
  | .finite .negative m e _ => toLex (-1, toLex (-e, -m))
  | .zero _ => toLex (0, toLex (0, 0))
  | .finite .positive m e _ => toLex (1, toLex (e, m))
  | .infinity .positive => toLex (2, toLex (0, 0))
  | .notANumber => toLex (3, toLex (0, 0))

/-- **Numbers compare as their ranks do.** -/
theorem compare_eq_cmp {u v : UnpackedFloat} (hu : ¬ u.isNaN) (hv : ¬ v.isNaN) :
    u.compare v = some (cmp (rank u) (rank v)) := by
  rcases u with (_ | _) | _ | _ | ⟨_ | _, m, e, hm⟩ <;>
    rcases v with (_ | _) | _ | _ | ⟨_ | _, n, f, hn⟩ <;>
    first
    | exact absurd rfl hu
    | exact absurd rfl hv
    | dsimp only [UnpackedFloat.compare, rank]
  all_goals
    simp [cmp, cmpUsing, Prod.Lex.toLex_lt_toLex, compare, compareOfLessAndEq]
  -- two of one sign are told apart by their exponents, or else by their mantissas
  all_goals
    clear hu hv
    grind [Ordering.then, Ordering.swap]

/-- What compares at all are numbers. -/
theorem not_isNaN_of_compare {u v : UnpackedFloat} {o : Ordering} (h : u.compare v = some o) :
    ¬ u.isNaN ∧ ¬ v.isNaN := by
  constructor
  · intro hnan
    cases u with
    | notANumber => cases h
    | _ => cases hnan
  · intro hnan
    cases v with
    | notANumber => cases u <;> cases h
    | _ => cases hnan

variable {s t u : Float}

theorem lt_iff (hs : ¬ s.isNaN) (ht : ¬ t.isNaN) :
    s < t ↔ rank s.toModel.unpack < rank t.toModel.unpack := by
  change decide ((_ == some Ordering.lt) = true) = true ↔ _
  rw [compare_eq_cmp hs ht, decide_eq_true_eq, beq_iff_eq, Option.some.injEq, cmp_eq_lt_iff]

theorem le_iff (hs : ¬ s.isNaN) (ht : ¬ t.isNaN) :
    s ≤ t ↔ rank s.toModel.unpack ≤ rank t.toModel.unpack := by
  change decide (Option.any _ _ = true) = true ↔ _
  rw [compare_eq_cmp hs ht, decide_eq_true_eq, Option.any_some, Ordering.isLE_iff_ne_gt,
    cmp_eq_gt_iff, not_lt]

theorem beq_iff (hs : ¬ s.isNaN) (ht : ¬ t.isNaN) :
    s == t ↔ rank s.toModel.unpack = rank t.toModel.unpack := by
  change (_ == some Ordering.eq) = true ↔ _
  rw [compare_eq_cmp hs ht, beq_iff_eq, Option.some.injEq, cmp_eq_eq_iff]

theorem isNumber_of_lt (h : s < t) : ¬ s.isNaN ∧ ¬ t.isNaN := by
  change decide ((_ == some Ordering.lt) = true) = true at h
  rw [decide_eq_true_eq, beq_iff_eq] at h
  exact not_isNaN_of_compare h

theorem isNumber_of_le (h : s ≤ t) : ¬ s.isNaN ∧ ¬ t.isNaN := by
  change decide (Option.any _ _ = true) = true at h
  rw [decide_eq_true_eq, Option.any_eq_true] at h
  obtain ⟨o, hcompare, -⟩ := h
  exact not_isNaN_of_compare hcompare

theorem isNumber_of_beq (h : s == t) : ¬ s.isNaN ∧ ¬ t.isNaN := by
  change (_ == some Ordering.eq) = true at h
  exact not_isNaN_of_compare (beq_iff_eq.1 h)

/-! ## The order of times -/

theorem lt_trans (hst : s < t) (htu : t < u) : s < u := by
  obtain ⟨hs, ht⟩ := isNumber_of_lt hst
  obtain ⟨-, hu⟩ := isNumber_of_lt htu
  rw [lt_iff hs ht] at hst
  rw [lt_iff ht hu] at htu
  exact (lt_iff hs hu).2 (hst.trans htu)

theorem lt_of_lt_of_le (hst : s < t) (htu : t ≤ u) : s < u := by
  obtain ⟨hs, ht⟩ := isNumber_of_lt hst
  obtain ⟨-, hu⟩ := isNumber_of_le htu
  rw [lt_iff hs ht] at hst
  rw [le_iff ht hu] at htu
  exact (lt_iff hs hu).2 (hst.trans_le htu)

theorem le_of_lt (h : s < t) : s ≤ t := by
  obtain ⟨hs, ht⟩ := isNumber_of_lt h
  exact (le_iff hs ht).2 ((lt_iff hs ht).1 h).le

theorem not_le_of_lt (h : s < t) : ¬ t ≤ s := by
  obtain ⟨hs, ht⟩ := isNumber_of_lt h
  rw [le_iff ht hs, not_le]
  exact (lt_iff hs ht).1 h

/-- Of two numbers, the one that has not been reached is later. -/
theorem lt_of_not_le (hs : ¬ s.isNaN) (ht : ¬ t.isNaN) (h : ¬ t ≤ s) : s < t := by
  rw [le_iff ht hs, not_le] at h
  exact (lt_iff hs ht).2 h

theorem beq_refl (hs : ¬ s.isNaN) : s == s :=
  (beq_iff hs hs).2 rfl

theorem beq_symm (h : s == t) : t == s := by
  obtain ⟨hs, ht⟩ := isNumber_of_beq h
  exact (beq_iff ht hs).2 ((beq_iff hs ht).1 h).symm

theorem beq_trans (hst : s == t) (htu : t == u) : s == u := by
  rwa [← beq_congr htu]

theorem le_of_beq (h : s == t) : s ≤ t := by
  obtain ⟨hs, ht⟩ := isNumber_of_beq h
  exact (le_iff hs ht).2 ((beq_iff hs ht).1 h).le

theorem not_beq_of_lt (h : s < t) : ¬ (s == t) := by
  obtain ⟨hs, ht⟩ := isNumber_of_lt h
  rw [beq_iff hs ht]
  exact ((lt_iff hs ht).1 h).ne

theorem lt_of_le_of_not_beq (h : s ≤ t) (hne : ¬ (s == t)) : s < t := by
  obtain ⟨hs, ht⟩ := isNumber_of_le h
  rw [le_iff hs ht] at h
  rw [beq_iff hs ht] at hne
  exact (lt_iff hs ht).2 (lt_of_le_of_ne h hne)

/-- Two numbers that are not the same moment follow one upon the other. -/
theorem lt_of_not_lt_of_not_beq (hs : ¬ s.isNaN) (ht : ¬ t.isNaN) (hlt : ¬ s < t)
    (hne : ¬ (s == t)) : t < s := by
  rw [lt_iff hs ht, not_lt] at hlt
  rw [beq_iff hs ht] at hne
  exact (lt_iff ht hs).2 (lt_of_le_of_ne hlt (Ne.symm hne))

end Moment

namespace Attribute

/-- **Samples in order of time**: each at a number, and later than those before it. -/
structure Chronological (samples : List (Float × Value)) : Prop where
  number : ∀ s ∈ samples, ¬ s.1.isNaN
  ascending : samples.Pairwise (·.1 < ·.1)

namespace Chronological

variable {samples front back : List (Float × Value)}

instance (samples : List (Float × Value)) : Decidable (Chronological samples) :=
  decidable_of_iff ((∀ s ∈ samples, ¬ s.1.isNaN) ∧ samples.Pairwise (·.1 < ·.1))
    ⟨fun h => ⟨h.1, h.2⟩, fun h => ⟨h.number, h.ascending⟩⟩

theorem nil : Chronological [] :=
  ⟨fun _ h => absurd h List.not_mem_nil, .nil⟩

/-- What stands in front is earlier than what stands behind. -/
theorem lt_of_append (h : Chronological (front ++ back)) {s u : Float × Value} (hs : s ∈ front)
    (hu : u ∈ back) : s.1 < u.1 :=
  (List.pairwise_append.1 h.ascending).2.2 s hs u hu

/-- **A test that no later time passes before an earlier one divides the samples**: those that pass
it stand in front. -/
theorem exists_cut (h : Chronological samples) (test : Float → Bool)
    (htest : ∀ s u : Float, s < u → test u → test s) :
    ∃ front back, samples = front ++ back ∧ (∀ s ∈ front, test s.1) ∧ ∀ s ∈ back, ¬ test s.1 := by
  refine ⟨samples.takeWhile fun s => test s.1, samples.dropWhile fun s => test s.1,
    List.takeWhile_append_dropWhile.symm, fun s => ?_, ?_⟩
  · exact List.mem_takeWhile_imp (p := fun s : Float × Value => test s.1)
  have hback : Chronological (samples.dropWhile fun s => test s.1) :=
    ⟨fun s hs => h.number s ((List.dropWhile_sublist _).mem hs),
      h.ascending.sublist (List.dropWhile_sublist _)⟩
  have hhead := List.head?_dropWhile_not (fun s : Float × Value => test s.1) samples
  cases hdrop : samples.dropWhile fun s => test s.1 with
  | nil => exact fun s hs => absurd hs List.not_mem_nil
  | cons first rest =>
    rw [hdrop] at hback hhead
    have hfirst : ¬ test first.1 := by simpa using hhead
    intro s hs
    rcases List.mem_cons.1 hs with rfl | hrest
    · exact hfirst
    · have hlt := (List.pairwise_cons.1 hback.ascending).1 s hrest
      exact fun hpass => hfirst (htest first.1 s.1 hlt hpass)

end Chronological

end Attribute

end CapsuleImaging
