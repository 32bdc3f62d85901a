import CapsuleImaging.Scene.Attribute

/-!
# Values at two times

What the value at one time says of the value at another. Times that are the same moment give the
same value (`resolve_of_sameMoment`), although they may be two numbers: a zero has two signs, and a
difference to a time that is not zero forgets which it was. An attribute that is not said to vary
has one value at all numbers (`resolve_at_of_not_mayVary`), which need not be its value by default:
its single sample holds at every number, and by default it does not.
-/

namespace CapsuleImaging

namespace Moment

open Float.Model

/-- Numbers that compare equal are one number, or zeros. -/
theorem eq_or_zero_of_compare {u v : UnpackedFloat} (h : u.compare v = some .eq) :
    u = v ∨ (∃ a, u = .zero a) ∧ ∃ b, v = .zero b := by
  cases u with
  | notANumber => cases h
  | zero a =>
    cases v with
    | zero b => exact Or.inr ⟨⟨a, rfl⟩, b, rfl⟩
    | notANumber => cases h
    | infinity b => cases b <;> cases h
    | finite b m e hm => cases b <;> cases h
  | infinity a =>
    cases v with
    | infinity b =>
      cases a <;> cases b <;> first | exact Or.inl rfl | cases h
    | notANumber => cases a <;> cases h
    | zero b => cases a <;> cases h
    | finite b m e hm => cases a <;> cases b <;> cases h
  | finite a m e hm =>
    cases v with
    | notANumber => cases a <;> cases h
    | zero b => cases a <;> cases h
    | infinity b => cases a <;> cases b <;> cases h
    | finite b n f hn =>
      left
      cases a <;> cases b <;> dsimp only [UnpackedFloat.compare] at h <;>
        simp [Ordering.then_eq_eq] at h
      all_goals
        obtain ⟨rfl, rfl⟩ := h
        rfl

theorem compare_zero (u : UnpackedFloat) (a b : UnpackedFloat.Sign) :
    u.compare (.zero a) = u.compare (.zero b) := by
  cases u with
  | finite s m e hm => cases s <;> rfl
  | infinity s => cases s <;> rfl
  | notANumber => rfl
  | zero s => rfl

/-- A difference to what is not zero forgets the sign of a zero. -/
theorem zero_sub {f : Format} {u : UnpackedFloat} (a b : UnpackedFloat.Sign)
    (h : u.compare (.zero a) ≠ some .eq) :
    UnpackedFloat.sub f (.zero a) u = UnpackedFloat.sub f (.zero b) u := by
  cases u with
  | zero s => exact absurd rfl h
  | notANumber => rfl
  | infinity s => rfl
  | finite s m e hm => rfl

/-! ## Numbers that are the same moment -/

variable {s t : Float}

/-- Nothing that is compared to them tells equal times apart. -/
theorem compare_congr (h : s == t) (x : Float) :
    x.toModel.unpack.compare s.toModel.unpack = x.toModel.unpack.compare t.toModel.unpack := by
  have hcompare : s.toModel.unpack.compare t.toModel.unpack = some .eq := beq_iff_eq.1 h
  obtain heq | ⟨⟨a, ha⟩, b, hb⟩ := eq_or_zero_of_compare hcompare
  · rw [heq]
  · rw [ha, hb, compare_zero _ a b]

theorem beq_congr (h : s == t) (x : Float) : (x == s) = (x == t) := by
  change (_ == some Ordering.eq) = (_ == some Ordering.eq)
  rw [compare_congr h x]

theorem le_congr (h : s == t) (x : Float) : decide (x ≤ s) = decide (x ≤ t) := by
  have hle : x.le s = x.le t := by
    change decide (Option.any _ _ = true) = decide (Option.any _ _ = true)
    rw [compare_congr h x]
  exact decide_eq_decide.2 (by change x.le s = true ↔ x.le t = true; rw [hle])

theorem sub_congr (h : s == t) {x : Float} (hx : ¬ (x == s)) : s - x = t - x := by
  have hcompare : s.toModel.unpack.compare t.toModel.unpack = some .eq := beq_iff_eq.1 h
  change Float.ofModel (.pack (.sub _ _ _)) = Float.ofModel (.pack (.sub _ _ _))
  obtain heq | ⟨⟨a, ha⟩, b, hb⟩ := eq_or_zero_of_compare hcompare
  · rw [heq]
  · have hne : x.toModel.unpack.compare (.zero a) ≠ some .eq := by
      rw [← ha]
      exact fun hc => hx (show (_ == some Ordering.eq) = true from beq_iff_eq.2 hc)
    rw [ha, hb, zero_sub a b hne]

end Moment

theorem TimeCode.sameMoment_iff {s t : TimeCode} :
    s.sameMoment t = true ↔ (s = .default ∧ t = .default) ∨
      ∃ x y : Float, s = .at x ∧ t = .at y ∧ (x == y) = true := by
  cases s <;> cases t <;> simp [sameMoment]

namespace Attribute

variable {s t : Float}

theorem between?_congr (h : s == t) (reached ahead : List (Float × Value)) :
    between? reached ahead s = between? reached ahead t := by
  unfold between?
  cases hlast : reached.getLast? with
  | none => cases ahead.head? <;> rfl
  | some last =>
    cases hhead : ahead.head? with
    | none => rfl
    | some first =>
      dsimp only
      rw [← Moment.beq_congr h]
      by_cases hx : (last.1 == s) = true
      · rw [if_pos hx, if_pos hx]
      · rw [if_neg hx, if_neg hx, Moment.sub_congr h hx]

theorem sampled?_congr (h : s == t) (samples : List (Float × Value)) :
    sampled? samples s = sampled? samples t := by
  -- the halves are told apart by one test, so the place is the same
  have hle : (fun e : Float × Value => decide (e.1 ≤ s)) = fun e => decide (e.1 ≤ t) :=
    funext fun e => Moment.le_congr h e.1
  rw [sampled?, sampled?, hle, between?_congr h]

/-- **Times that are the same moment give the same value.** -/
theorem resolve_of_sameMoment {s t : TimeCode} (h : s.sameMoment t) (a : Attribute) :
    a.resolve s = a.resolve t := by
  rcases TimeCode.sameMoment_iff.1 h with ⟨rfl, rfl⟩ | ⟨x, y, rfl, rfl, hxy⟩
  · rfl
  · rw [resolve, resolve, sampled?_congr hxy]

theorem sampled?_nil (time : Float) : sampled? [] time = none := by
  simp [sampled?, between?]

/-- A sample that is the only one holds at every number. -/
theorem sampled?_singleton (time t : Float) (v : Value) : sampled? [(t, v)] time = some v := by
  have hplace : Halving.partitionPoint (·.1 ≤ time) [(t, v)] = if t ≤ time then 1 else 0 := by
    simp [Halving.partitionPoint, Halving.lastPassed]
  rw [sampled?, hplace]
  split <;> rfl

/-- What is not said to vary has one sample or none. -/
theorem samples_of_not_mayVary {a : Attribute} (h : ¬ a.mayVary) :
    a.samples = [] ∨ ∃ sample, a.samples = [sample] := by
  simp only [mayVary, Bool.or_eq_true, decide_eq_true_eq, not_or] at h
  cases hsamples : a.samples with
  | nil => exact Or.inl rfl
  | cons sample rest =>
    rw [hsamples, List.length_cons] at h
    have hrest : rest = [] := List.length_eq_zero_iff.1 (by omega)
    exact Or.inr ⟨sample, by rw [hrest]⟩

/-- **What is not said to vary is the same at every number**: its sample, or its default if there is
none. -/
theorem resolve_at_of_not_mayVary {a : Attribute} (h : ¬ a.mayVary) (t : Float) :
    a.resolve (.at t) = (a.samples.head?.map (·.2)).or a.fallback := by
  rw [resolve]
  obtain hnone | ⟨sample, hsingle⟩ := samples_of_not_mayVary h
  · rw [hnone, sampled?_nil]
    rfl
  · rw [hsingle, sampled?_singleton, List.head?_cons, Option.map_some]

end Attribute

end CapsuleImaging
