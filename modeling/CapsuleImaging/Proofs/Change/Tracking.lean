import CapsuleImaging.Change.Variability
import Mathlib.Logic.Basic

/-!
# What a record of variability says

A category is a single bit, so a set that is put together has it exactly when a part has
(`contains_union_iff`). From this a record of variability is read off the stage: besides what it
knew, it has the points of a capsule exactly when some attribute that shapes the capsule may vary
(`contains_points_trackCapsule`). Checks that were skipped change nothing, since what they could
have found was known.
-/

namespace CapsuleImaging

namespace DirtyBits

/-- A set of one category. -/
def IsCategory (c : DirtyBits) : Prop :=
  ∃ i < 8, c.word = BitVec.twoPow 32 i

theorem isCategory_points : IsCategory points := ⟨0, by decide, by decide⟩

theorem isCategory_topology : IsCategory topology := ⟨1, by decide, by decide⟩

theorem isCategory_transform : IsCategory transform := ⟨2, by decide, by decide⟩

theorem isCategory_visibility : IsCategory visibility := ⟨3, by decide, by decide⟩

theorem isCategory_extent : IsCategory extent := ⟨4, by decide, by decide⟩

theorem isCategory_doubleSided : IsCategory doubleSided := ⟨5, by decide, by decide⟩

theorem isCategory_primvar : IsCategory primvar := ⟨6, by decide, by decide⟩

theorem isCategory_materialId : IsCategory materialId := ⟨7, by decide, by decide⟩

/-- Which sets have a category is a matter of one bit. -/
theorem IsCategory.exists_bit {c : DirtyBits} (hc : c.IsCategory) :
    ∃ i < 8, ∀ a : DirtyBits, a.contains c ↔ a.word.getLsbD i = true := by
  obtain ⟨i, hi, hword⟩ := hc
  refine ⟨i, hi, fun a => ?_⟩
  rw [contains_iff, hword]
  constructor
  · intro h
    apply h
    rw [BitVec.getLsbD_twoPow]
    simp only [decide_true, Bool.and_true, decide_eq_true_eq]
    omega
  · intro h j hj
    rw [BitVec.getLsbD_twoPow] at hj
    simp only [Bool.and_eq_true, decide_eq_true_eq] at hj
    rw [← hj.2]
    exact h

theorem contains_self (a : DirtyBits) : a.contains a :=
  contains_iff.2 fun _ h => h

variable {a b c : DirtyBits}

/-- Of two categories neither has the other. -/
theorem IsCategory.contains_iff_eq {d : DirtyBits} (hc : c.IsCategory) (hd : d.IsCategory) :
    d.contains c ↔ d = c := by
  constructor
  · intro h
    obtain ⟨i, hi, hcword⟩ := hc
    obtain ⟨j, -, hdword⟩ := hd
    have hbit : d.word.getLsbD i := by
      apply contains_iff.1 h
      rw [hcword, BitVec.getLsbD_twoPow]
      simp only [decide_true, Bool.and_true, decide_eq_true_eq]
      omega
    rw [hdword, BitVec.getLsbD_twoPow] at hbit
    simp only [Bool.and_eq_true, decide_eq_true_eq] at hbit
    obtain ⟨word⟩ := d
    rw [hbit.2, ← hcword] at hdword
    exact congrArg mk hdword
  · rintro rfl
    exact contains_self d

/-- **A union has the categories of its parts.** -/
theorem contains_union_iff (hc : c.IsCategory) :
    (a ∪ b).contains c ↔ a.contains c ∨ b.contains c := by
  obtain ⟨i, -, hbit⟩ := hc.exists_bit
  rw [hbit, hbit, hbit, word_union, BitVec.getLsbD_or, Bool.or_eq_true]

theorem not_contains_clean (hc : c.IsCategory) : ¬ clean.contains c := by
  obtain ⟨i, -, hbit⟩ := hc.exists_bit
  rw [hbit]
  simp [clean]

theorem contains_all (hc : c.IsCategory) : all.contains c := by
  have hfull : ∀ i < 8, all.word.getLsbD i = true := by decide
  obtain ⟨i, hi, hbit⟩ := hc.exists_bit
  rw [hbit]
  exact hfull i hi

/-- The empty set is one word. -/
theorem eq_clean_of_isEmpty (h : a.isEmpty) : a = clean := by
  obtain ⟨word⟩ := a
  exact congrArg mk (beq_iff_eq.1 h)

/-- Nothing added leaves a set as it is. -/
theorem union_of_isEmpty (h : b.isEmpty) : a ∪ b = a := by
  rw [eq_clean_of_isEmpty h]
  exact congrArg mk BitVec.or_zero

/-- What shapes a capsule moves its points. -/
theorem ofCapsuleProperty_name (s : ShapeAttribute) : ofCapsuleProperty s.name = points := by
  cases s <;> decide

end DirtyBits

namespace Variability

open DirtyBits

variable {v : Variability} {stage : Stage} {path : PrimPath}

/-- **A check finds its category where the attribute may vary**, and nothing else. -/
theorem contains_check_iff {c : DirtyBits} (hc : c.IsCategory) (name : String)
    (category : DirtyBits) :
    (v.check stage path name category).varying.contains c ↔
      v.varying.contains c ∨ category.contains c ∧ stage.mayVary path name := by
  unfold check
  split
  · next hknown =>
    constructor
    · exact Or.inl
    · rintro (h | ⟨h, -⟩)
      · exact h
      · exact contains_trans hknown h
  · dsimp only
    split
    · next hvary =>
      rw [mark, contains_union_iff hc]
      simp only [hvary, and_true]
    · next hvary =>
      simp only [hvary, and_false, or_false, Bool.false_eq_true]

theorem contains_checkAll_iff {c : DirtyBits} (hc : c.IsCategory)
    (checks : List (String × DirtyBits)) :
    (v.checkAll stage path checks).varying.contains c ↔
      v.varying.contains c ∨ ∃ p ∈ checks, p.2.contains c ∧ stage.mayVary path p.1 := by
  unfold checkAll
  induction checks generalizing v with
  | nil => simp
  | cons p rest ih =>
    rw [List.foldl_cons, ih, contains_check_iff hc, or_assoc]
    simp only [List.mem_cons, exists_eq_or_imp]

/-- No attribute that every geometric prim has moves its points. -/
theorem not_contains_points_gprimChecks {p : String × DirtyBits}
    (hp : p ∈ gprimChecks stage path) : ¬ p.2.contains points := by
  have htable : ∀ rule ∈ propertyTable, ¬ rule.2.contains points := by decide
  simp only [gprimChecks, List.mem_filterMap, NameRule.lookup?, Option.map_map,
    Option.map_eq_some_iff] at hp
  obtain ⟨name, -, rule, hfind, rfl⟩ := hp
  exact htable rule (List.mem_of_find?_eq_some hfind)

/-- **The points vary exactly with the attributes that shape the capsule.** -/
theorem contains_points_trackCapsule :
    (v.trackCapsule stage path).varying.contains points ↔
      v.varying.contains points ∨ ∃ schema, CapsuleSchema.of? stage path = some schema ∧
        ∃ a ∈ schema.shapeAttributes, stage.mayVary path a.name := by
  have hgprim : (v.trackGprim stage path).varying.contains points ↔ v.varying.contains points := by
    rw [trackGprim, contains_checkAll_iff isCategory_points, or_iff_left]
    rintro ⟨p, hp, hpoints, -⟩
    exact not_contains_points_gprimChecks hp hpoints
  rw [trackCapsule, contains_checkAll_iff isCategory_points, hgprim, shapeChecks]
  cases CapsuleSchema.of? stage path with
  | none => simp
  | some schema =>
    simp only [List.mem_map, exists_exists_and_eq_and, contains_self, true_and, Option.some.injEq,
      exists_eq_left']

end Variability

end CapsuleImaging
