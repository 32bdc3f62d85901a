import CapsuleImaging.Change.Property
import Mathlib.Data.List.Basic

/-!
# What a set of locators covers

A set keeps some of the locators that were put into it and drops those that lie within others. What
it says is not changed by that: data is concerned exactly if some locator that was put in concerns
it (`intersects_insert`, and from it each way of putting sets together). Dropping does no harm since
the ways that lead through one locator are comparable (`intersects_of_isWithin`).

For edits of properties this reads: data is concerned exactly if one of the properties puts in a
locator that concerns it (`intersects_invalidatedBy`). A property of which it is known what depends
on it never concerns the connectivity (`not_intersects_topology`).
-/

namespace CapsuleImaging

namespace Locator

variable {a b l : Locator}

theorem isWithin_iff : a.isWithin b ↔ b.elements <+: a.elements :=
  List.isPrefixOf_iff_prefix

theorem intersects_iff :
    a.intersects b ↔ b.elements <+: a.elements ∨ a.elements <+: b.elements := by
  rw [intersects, Bool.or_eq_true, isWithin_iff, isWithin_iff]

/-- **What lies within a locator concerns nothing that the locator does not.** -/
theorem intersects_of_isWithin (hwithin : a.isWithin b) (h : a.intersects l) :
    b.intersects l := by
  rw [isWithin_iff] at hwithin
  rw [intersects_iff] at h ⊢
  rcases h with hinside | houtside
  · -- both lead to what lies within, so one leads through the other
    exact List.prefix_or_prefix_of_prefix hinside hwithin
  · exact Or.inr (hwithin.trans houtside)

end Locator

namespace LocatorSet

variable {s : LocatorSet} {l m : Locator}

theorem intersects_iff : s.intersects l ↔ ∃ m ∈ s.members, m.intersects l := by
  simp only [intersects, List.any_eq_true, mem_toList]

theorem not_intersects_empty : ¬ empty.intersects l := by
  rw [intersects_iff]
  rintro ⟨m, hm, -⟩
  exact Std.ExtTreeSet.not_mem_empty hm

/-- **A set concerns what it concerned before, and what the new locator concerns.** -/
theorem intersects_insert : (s.insert m).intersects l ↔ s.intersects l ∨ m.intersects l := by
  by_cases hcovered : ∃ c ∈ s.members, m.isWithin c
  · obtain ⟨c, hc, hwithin⟩ := hcovered
    have hm : m.intersects l → s.intersects l := fun h =>
      intersects_iff.2 ⟨c, hc, Locator.intersects_of_isWithin hwithin h⟩
    rw [insert_of_covered hc hwithin, or_iff_left_of_imp hm]
  · have hnew : ∀ c ∈ s.members, ¬ m.isWithin c := fun c hc h => hcovered ⟨c, hc, h⟩
    rw [intersects_iff, intersects_iff]
    constructor
    · rintro ⟨c, hc, hl⟩
      rcases (mem_insert_of_not_covered hnew).1 hc with rfl | ⟨hold, -⟩
      · exact Or.inr hl
      · exact Or.inl ⟨c, hold, hl⟩
    · rintro (⟨c, hc, hl⟩ | hl)
      · -- what gives way lies within the new locator
        by_cases hwithin : c.isWithin m
        · have hm := Locator.intersects_of_isWithin hwithin hl
          exact ⟨m, (mem_insert_of_not_covered hnew).2 (Or.inl rfl), hm⟩
        · exact ⟨c, (mem_insert_of_not_covered hnew).2 (Or.inr ⟨hc, hwithin⟩), hl⟩
      · exact ⟨m, (mem_insert_of_not_covered hnew).2 (Or.inl rfl), hl⟩

theorem intersects_insertAll (locators : List Locator) :
    (s.insertAll locators).intersects l ↔
      s.intersects l ∨ ∃ m ∈ locators, m.intersects l := by
  unfold insertAll
  induction locators generalizing s with
  | nil => simp
  | cons m rest ih =>
    rw [List.foldl_cons, ih, intersects_insert, or_assoc]
    simp only [List.mem_cons, exists_eq_or_imp]

theorem intersects_union {t : LocatorSet} :
    (s.union t).intersects l ↔ s.intersects l ∨ t.intersects l := by
  rw [union, intersects_insertAll, intersects_iff (s := t)]
  simp only [mem_toList]

/-! ## Edited properties -/

/-- The locators that an edit of a property makes stale. -/
def madeStale (name : String) : LocatorSet :=
  empty.invalidateProperty name

/-- An edit adds what it makes stale to what was stale before. -/
theorem intersects_invalidateProperty (name : String) :
    (s.invalidateProperty name).intersects l ↔
      s.intersects l ∨ (madeStale name).intersects l := by
  unfold madeStale invalidateProperty
  cases ShapeAttribute.ofName? name with
  | some a =>
    dsimp only
    rw [intersects_insertAll, intersects_insertAll, or_iff_right not_intersects_empty]
  | none =>
    dsimp only
    rw [intersects_union, intersects_union, or_iff_right not_intersects_empty]

/-- **Data is concerned by some edits exactly if it is concerned by one of them.** -/
theorem intersects_invalidatedBy (names : List String) :
    (invalidatedBy names).intersects l ↔ ∃ name ∈ names, (madeStale name).intersects l := by
  have hfold : ∀ s : LocatorSet, (names.foldl invalidateProperty s).intersects l ↔
      s.intersects l ∨ ∃ name ∈ names, (madeStale name).intersects l := by
    induction names with
    | nil => simp
    | cons name rest ih =>
      intro s
      rw [List.foldl_cons, ih, intersects_invalidateProperty, or_assoc]
      simp only [List.mem_cons, exists_eq_or_imp]
  rw [invalidatedBy, hfold, or_iff_right not_intersects_empty]

/-- An edit of what shapes a capsule makes its parameters and the points stale. -/
theorem intersects_madeStale_shape (a : ShapeAttribute) :
    (madeStale a.name).intersects l ↔ ∃ m ∈ parametersOf a ++ [.points], m.intersects l := by
  have hname : ShapeAttribute.ofName? a.name = some a := by cases a <;> decide
  simp only [madeStale, invalidateProperty, hname, intersects_insertAll,
    or_iff_right not_intersects_empty]

end LocatorSet

namespace DirtyBits

/-- A property makes stale what a rule about it says, or everything if no rule knows it. -/
theorem ofProperty_of_rule_or_eq_all (name : String) :
    (∃ rule ∈ propertyTable, rule.1.applies name ∧ ofProperty name = rule.2) ∨
      ofProperty name = all := by
  unfold ofProperty NameRule.lookup?
  cases h : propertyTable.find? fun rule => rule.1.applies name with
  | none => exact Or.inr rfl
  | some rule =>
    have happlies := List.find?_some h
    exact Or.inl ⟨rule, List.mem_of_find?_eq_some h, happlies, rfl⟩

end DirtyBits

/-- **An edit of a property that some rule knows leaves the connectivity alone.** -/
theorem LocatorSet.not_intersects_topology {name : String}
    (hknown : (ShapeAttribute.ofName? name).isSome ∨ DirtyBits.ofProperty name ≠ .all) :
    ¬ (madeStale name).intersects .topology := by
  have hshape : ∀ a : ShapeAttribute, ∀ m ∈ parametersOf a ++ [.points],
      ¬ m.intersects .topology := by
    intro a
    cases a <;> decide
  have htable : ∀ rule ∈ DirtyBits.propertyTable,
      ¬ (DirtyBits.locators rule.2).intersects .topology := by decide +kernel
  unfold madeStale invalidateProperty
  cases h : ShapeAttribute.ofName? name with
  | some a =>
    dsimp only
    rw [intersects_insertAll, or_iff_right not_intersects_empty]
    rintro ⟨m, hm, hl⟩
    exact hshape a m hm hl
  | none =>
    rw [h] at hknown
    have hrule := (DirtyBits.ofProperty_of_rule_or_eq_all name).resolve_right
      (hknown.resolve_left (by simp))
    obtain ⟨rule, hmem, -, heq⟩ := hrule
    dsimp only
    rw [intersects_union, or_iff_right not_intersects_empty, heq]
    exact htable rule hmem

end CapsuleImaging
