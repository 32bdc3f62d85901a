import CapsuleImaging.Json.Fields

/-!
# Floats that are read are numbers

No digits write what is no number (`not_isNaN_of_float?`). A significand is scaled by powers of ten
that are finite and not zero. A product or a quotient with such a one is a number if the other side
is: what is no number comes of zeros and infinities on both sides only. That holds of the exact
results, which rounding turns into zeros or finite numbers and storing perhaps into infinities, but
into nothing less (`not_isNaN_unpack_pack`).
-/

namespace CapsuleImaging

namespace Numeral

open Float.Model

variable {f : Format} {u : UnpackedFloat} {x y : Float}

/-! ## Rounding and storing -/

theorem not_isNaN_roundWithAccuracy (s : UnpackedFloat.Sign) (m : Nat) (e : Int)
    (accuracy : UnpackedFloat.Accuracy) :
    ¬ (UnpackedFloat.roundWithAccuracy f s m e accuracy).isNaN := by
  fun_cases UnpackedFloat.roundWithAccuracy f s m e accuracy <;> exact Bool.false_ne_true

theorem not_isNaN_ofNat (n : Nat) : ¬ (UnpackedFloat.ofNat f n).isNaN := by
  unfold UnpackedFloat.ofNat UnpackedFloat.ofInt UnpackedFloat.normalize
  split
  · exact not_isNaN_roundWithAccuracy _ _ _ _
  · exact Bool.false_ne_true
  · exact not_isNaN_roundWithAccuracy _ _ _ _

/-- A stored float is a number unless its exponent is the greatest, with a mantissa beside it. -/
theorem not_isNaN_unpack {b : BitVec f.numBits}
    (h : UnpackedFloat.unpackExponent b = -1#_ → UnpackedFloat.unpackMantissa b = 0#_) :
    ¬ (UnpackedFloat.unpack f b).isNaN := by
  unfold UnpackedFloat.unpack
  dsimp only
  by_cases hgreatest : UnpackedFloat.unpackExponent b = -1#_
  · rw [if_pos hgreatest, if_pos (h hgreatest)]
    exact Bool.false_ne_true
  · rw [if_neg hgreatest]
    by_cases hleast : UnpackedFloat.unpackExponent b = 0#_
    · rw [if_pos hleast]
      by_cases hnone : UnpackedFloat.unpackMantissa b = 0#_
      · rw [dif_pos hnone]
        exact Bool.false_ne_true
      · rw [dif_neg hnone]
        exact Bool.false_ne_true
    · rw [if_neg hleast]
      exact Bool.false_ne_true

/-- **What is stored of a number is a number or an infinity.** -/
theorem not_isNaN_unpack_pack (h : ¬ u.isNaN) :
    ¬ (UnpackedFloat.unpack f (UnpackedFloat.pack f u)).isNaN := by
  refine not_isNaN_unpack ?_
  have hbits : 1 < 2 ^ f.exponentBits := Nat.one_lt_two_pow (Nat.ne_of_gt f.he)
  fun_cases UnpackedFloat.pack f u with
  | case1 => exact absurd rfl h
  | case2 s => exact fun _ => UnpackedFloat.unpackMantissa_packComponents
  | case3 s => exact fun _ => UnpackedFloat.unpackMantissa_packComponents
  | case4 s m e hm biased hover => exact fun _ => UnpackedFloat.unpackMantissa_packComponents
  | case5 s m e hm bits biased hover hnormal =>
    -- the exponent is below the greatest, or else this would have been an infinity
    intro hgreatest
    rw [UnpackedFloat.unpackExponent_packComponents, ← BitVec.toNat_inj, BitVec.toNat_ofNat,
      BitVec.neg_one_eq_allOnes, BitVec.toNat_allOnes, Nat.mod_eq_of_lt (by omega)] at hgreatest
    omega
  | case6 s m e hm bits biased hover hnormal =>
    intro hgreatest
    rw [UnpackedFloat.unpackExponent_packComponents, ← BitVec.toNat_inj, BitVec.toNat_ofNat,
      BitVec.neg_one_eq_allOnes, BitVec.toNat_allOnes, Nat.zero_mod] at hgreatest
    omega

/-! ## Products and quotients -/

theorem exists_unpack_eq_finite (hfinite : x.isFinite) (hne : ¬ (x == 0)) :
    ∃ s m e hm, x.toModel.unpack = .finite s m e hm := by
  change x.toModel.unpack.isFinite = true at hfinite
  cases hx : x.toModel.unpack with
  | notANumber =>
    rw [hx] at hfinite
    cases hfinite
  | infinity s =>
    rw [hx] at hfinite
    cases hfinite
  | zero s =>
    refine absurd ?_ hne
    change (x.toModel.unpack.compare (0 : Float).toModel.unpack == some .eq) = true
    rw [hx]
    rfl
  | finite s m e hm => exact ⟨s, m, e, hm, rfl⟩

theorem not_isNaN_unpacked_mul (hu : ¬ u.isNaN) {s : UnpackedFloat.Sign} {m : Nat} {e : Int}
    (hm : 0 < m) : ¬ (UnpackedFloat.mul f u (.finite s m e hm)).isNaN := by
  cases u with
  | notANumber => exact absurd rfl hu
  | infinity t => exact Bool.false_ne_true
  | zero t => exact Bool.false_ne_true
  | finite t n d hn => exact not_isNaN_roundWithAccuracy _ _ _ _

theorem not_isNaN_unpacked_div (hu : ¬ u.isNaN) {s : UnpackedFloat.Sign} {m : Nat} {e : Int}
    (hm : 0 < m) : ¬ (UnpackedFloat.div f u (.finite s m e hm)).isNaN := by
  cases u with
  | notANumber => exact absurd rfl hu
  | infinity t => exact Bool.false_ne_true
  | zero t => exact Bool.false_ne_true
  | finite t n d hn => exact not_isNaN_roundWithAccuracy _ _ _ _

/-- A product with what is finite and not zero is a number if the other side is. -/
theorem not_isNaN_mul (hx : ¬ x.isNaN) (hfinite : y.isFinite) (hne : ¬ (y == 0)) :
    ¬ (x * y).isNaN := by
  obtain ⟨s, m, e, hm, hy⟩ := exists_unpack_eq_finite hfinite hne
  refine not_isNaN_unpack_pack (f := .binary64) (u := .mul .binary64 _ _) ?_
  rw [hy]
  exact not_isNaN_unpacked_mul hx hm

/-- And so is a quotient by it. -/
theorem not_isNaN_div (hx : ¬ x.isNaN) (hfinite : y.isFinite) (hne : ¬ (y == 0)) :
    ¬ (x / y).isNaN := by
  obtain ⟨s, m, e, hm, hy⟩ := exists_unpack_eq_finite hfinite hne
  refine not_isNaN_unpack_pack (f := .binary64) (u := .div .binary64 _ _) ?_
  rw [hy]
  exact not_isNaN_unpacked_div hx hm

theorem not_isNaN_neg (hx : ¬ x.isNaN) : ¬ (-x).isNaN := by
  refine not_isNaN_unpack_pack (f := .binary64) (u := .neg _) ?_
  change ¬ x.toModel.unpack.isNaN at hx
  revert hx
  cases x.toModel.unpack with
  | notANumber => exact fun hx => absurd rfl hx
  | _ => exact fun _ => Bool.false_ne_true

theorem not_isNaN_of_isFinite (h : x.isFinite) : ¬ x.isNaN := by
  change x.toModel.unpack.isFinite = true at h
  change ¬ x.toModel.unpack.isNaN = true
  revert h
  cases x.toModel.unpack with
  | notANumber => exact fun h => nomatch h
  | _ => exact fun _ => Bool.false_ne_true

/-! ## Reading -/

theorem not_isNaN_unpacked_ofScientific (m : Nat) (e : Int) :
    ¬ (UnpackedFloat.ofScientific f m e).isNaN := by
  fun_cases UnpackedFloat.ofScientific f m e with
  | case4 => exact not_isNaN_unpacked_mul (u := .finite ..) Bool.false_ne_true _
  | case5 => exact not_isNaN_unpacked_div (u := .finite ..) Bool.false_ne_true _
  | _ => exact Bool.false_ne_true

/-- A natural number goes through a word, times one, if it is small enough for all its bits to be
kept; otherwise it is rounded as it is. -/
theorem not_isNaN_natCast (n : Nat) : ¬ (Float.ofNat n).isNaN := by
  change ¬ (Float.ofScientific n false 0).isNaN
  unfold Float.ofScientific
  split
  · have hone : (Float.ofBits 0x3ff0000000000000).isFinite ∧
        ¬ (Float.ofBits 0x3ff0000000000000 == 0) := by decide +kernel
    refine not_isNaN_mul ?_ hone.1 hone.2
    exact not_isNaN_unpack_pack (not_isNaN_ofNat _)
  · exact not_isNaN_unpack_pack (not_isNaN_unpacked_ofScientific _ _)

/-- Each of the powers that are divided by, looked at one by one. -/
theorem powerOfTen_finite {n : Nat} (h : n ≤ 308) :
    (powerOfTen n).isFinite ∧ ¬ (powerOfTen n == 0) := by
  have hall : ∀ k ∈ List.range 309, (powerOfTen k).isFinite ∧ ¬ (powerOfTen k == 0) := by
    decide +kernel
  exact hall n (List.mem_range.2 (Nat.lt_succ_of_le h))

theorem not_isNaN_sink (steps : Nat) (hx : ¬ x.isNaN) : ¬ (sink steps x).isNaN := by
  induction steps generalizing x with
  | zero => exact hx
  | succ steps ih =>
    rw [sink]
    split
    · exact hx
    · obtain ⟨hfinite, hne⟩ := powerOfTen_finite (Nat.le_refl 308)
      exact ih (not_isNaN_div hx hfinite hne)

/-- **Scaling a number gives a number**, if anything. -/
theorem not_isNaN_of_scale? {power : Int} (hx : ¬ x.isNaN) (h : scale? x power = some y) :
    ¬ y.isNaN := by
  unfold scale? at h
  split at h
  · obtain ⟨hfinite, hne⟩ :=
      powerOfTen_finite (n := power.natAbs - 308 * ((power.natAbs - 1) / 308)) (by omega)
    cases h
    exact not_isNaN_div (not_isNaN_sink _ hx) hfinite hne
  · split at h
    · cases h
      exact hx
    · split at h
      · cases h
      · dsimp only at h
        split at h
        · next hscaled =>
          cases h
          exact not_isNaN_of_isFinite hscaled
        · cases h

theorem not_isNaN_of_toFloat? {n : Numeral} (h : n.toFloat? = some x) : ¬ x.isNaN := by
  unfold toFloat? at h
  obtain ⟨magnitude, hmagnitude, rfl⟩ := Option.map_eq_some_iff.1 h
  have hnumber : ¬ magnitude.isNaN := by
    split at hmagnitude
    · exact not_isNaN_of_scale? (not_isNaN_natCast _) hmagnitude
    · dsimp only at hmagnitude
      split at hmagnitude
      · exact not_isNaN_of_scale? (not_isNaN_natCast _) hmagnitude
      · split at hmagnitude
        · cases hmagnitude
          exact not_isNaN_of_isFinite (by decide +kernel)
        · cases hmagnitude
  split
  · exact not_isNaN_neg hnumber
  · exact hnumber

end Numeral

/-- **What is read as a float is a number.** -/
theorem Json.not_isNaN_of_float? {j : Json} {x : Float} (h : j.float? = some x) : ¬ x.isNaN := by
  cases j with
  | number n => exact Numeral.not_isNaN_of_toFloat? h
  | _ => cases h

end CapsuleImaging
