import CapsuleImaging.Proofs.Change.Coverage

/-!
# Sets of locators by what was put in

However a set is put together, by adding locators one at a time, by taking a list or by uniting sets
(an `Assembly`), it keeps the **outermost** of all that was ever put in: the locators that lie
within no other. What carries this is `Covers`. A set keeps only what was put in, and each locator
that was put in lies within one that is kept: a locator that is turned away lies within one that is
there, and what gives way lies within its successor. As no locator that is kept lies within another,
these must be the outermost ones (`Covers.mem_iff_outermost`).

So a set says nothing of the order in which its locators came, of their repetitions or of the sets
they came in (`build_congr`), and the same holds of what edits of some properties make stale
(`invalidatedBy_congr`).
-/

namespace CapsuleImaging

open Std

namespace Locator

/-- Of some locators, one that lies within no other. -/
def Outermost (locators : List Locator) (l : Locator) : Prop :=
  l ∈ locators ∧ ∀ m ∈ locators, l.isWithin m → m = l

variable {a b c : Locator}

theorem isWithin_self (a : Locator) : a.isWithin a :=
  isWithin_iff.2 List.prefix_rfl

theorem isWithin_trans (hab : a.isWithin b) (hbc : b.isWithin c) : a.isWithin c :=
  isWithin_iff.2 ((isWithin_iff.1 hbc).trans (isWithin_iff.1 hab))

theorem isWithin_antisymm (hab : a.isWithin b) (hba : b.isWithin a) : a = b := by
  have hlength := (isWithin_iff.1 hab).length_le
  have helements := (isWithin_iff.1 hba).eq_of_length_le hlength
  exact congrArg Locator.mk helements

/-- Which locators are outermost is a matter of which there are. -/
theorem outermost_congr {locators others : List Locator}
    (h : ∀ m, m ∈ locators ↔ m ∈ others) (l : Locator) :
    l.Outermost locators ↔ l.Outermost others := by
  simp only [Outermost, h]

end Locator

namespace LocatorSet

variable {s t : LocatorSet} {l m : Locator} {locators others : List Locator}

/-- A set is what it keeps. -/
theorem ext (h : ∀ l, l ∈ s.members ↔ l ∈ t.members) : s = t := by
  obtain ⟨members, minimal⟩ := s
  obtain ⟨others, minimal'⟩ := t
  obtain rfl : members = others := ExtTreeSet.ext_mem fun l => h l
  rfl

/-- **A set for some locators**: it keeps no other, and each of them lies within one that it
keeps. -/
structure Covers (s : LocatorSet) (locators : List Locator) : Prop where
  kept : ∀ m ∈ s.members, m ∈ locators
  covered : ∀ m ∈ locators, ∃ c ∈ s.members, m.isWithin c

namespace Covers

/-- **What is kept are the outermost locators.** -/
theorem mem_iff_outermost (h : s.Covers locators) : l ∈ s.members ↔ l.Outermost locators := by
  constructor
  · intro hl
    refine ⟨h.kept l hl, fun m hm hwithin => ?_⟩
    -- what lies around `l` lies within something that is kept, which must be `l`
    obtain ⟨c, hc, hmc⟩ := h.covered m hm
    obtain rfl := s.minimal l hl c hc (Locator.isWithin_trans hwithin hmc)
    exact Locator.isWithin_antisymm hmc hwithin
  · rintro ⟨hl, houtermost⟩
    obtain ⟨c, hc, hwithin⟩ := h.covered l hl
    obtain rfl := houtermost c (h.kept c hc) hwithin
    exact hc

/-- **What the set concerns** is what some locator concerns that was put in. -/
theorem intersects_iff (h : s.Covers locators) :
    s.intersects l ↔ ∃ m ∈ locators, m.intersects l := by
  rw [LocatorSet.intersects_iff]
  constructor
  · rintro ⟨c, hc, hl⟩
    exact ⟨c, h.kept c hc, hl⟩
  · rintro ⟨m, hm, hl⟩
    obtain ⟨c, hc, hwithin⟩ := h.covered m hm
    exact ⟨c, hc, Locator.intersects_of_isWithin hwithin hl⟩

theorem empty : LocatorSet.empty.Covers [] where
  kept _ hm := absurd hm ExtTreeSet.not_mem_empty
  covered _ hm := absurd hm List.not_mem_nil

theorem insert (h : s.Covers locators) (l : Locator) : (s.insert l).Covers (locators ++ [l]) := by
  by_cases hcovered : ∃ c ∈ s.members, l.isWithin c
  · obtain ⟨c, hc, hwithin⟩ := hcovered
    rw [insert_of_covered hc hwithin]
    refine ⟨fun m hm => List.mem_append_left _ (h.kept m hm), fun m hm => ?_⟩
    rcases List.mem_append.1 hm with hold | hnew
    · exact h.covered m hold
    · obtain rfl := List.mem_singleton.1 hnew
      exact ⟨c, hc, hwithin⟩
  · have hmem : ∀ {a}, a ∈ (s.insert l).members ↔ a = l ∨ a ∈ s.members ∧ ¬ a.isWithin l :=
      mem_insert_of_not_covered fun c hc hwithin => hcovered ⟨c, hc, hwithin⟩
    constructor
    · intro m hm
      rcases hmem.1 hm with rfl | ⟨hold, -⟩
      · exact List.mem_append_right _ (List.mem_singleton_self _)
      · exact List.mem_append_left _ (h.kept m hold)
    · intro m hm
      rcases List.mem_append.1 hm with hold | hnew
      · -- what covered `m` is still there, or lies within the new locator and gave way to it
        obtain ⟨c, hc, hwithin⟩ := h.covered m hold
        by_cases hgives : c.isWithin l
        · exact ⟨l, hmem.2 (Or.inl rfl), Locator.isWithin_trans hwithin hgives⟩
        · exact ⟨c, hmem.2 (Or.inr ⟨hc, hgives⟩), hwithin⟩
      · obtain rfl := List.mem_singleton.1 hnew
        exact ⟨m, hmem.2 (Or.inl rfl), Locator.isWithin_self m⟩

theorem insertAll (h : s.Covers locators) (others : List Locator) :
    (s.insertAll others).Covers (locators ++ others) := by
  unfold LocatorSet.insertAll
  induction others generalizing s locators with
  | nil => rwa [List.append_nil]
  | cons l rest ih =>
    have hrest := ih (h.insert l)
    rwa [List.append_assoc, List.singleton_append] at hrest

theorem ofList (locators : List Locator) : (LocatorSet.ofList locators).Covers locators :=
  empty.insertAll locators

/-- What was dropped from the other set before the union need not be put in again. -/
theorem union (h : s.Covers locators) (h' : t.Covers others) :
    (s.union t).Covers (locators ++ others) := by
  have hunion : (s.union t).Covers (locators ++ t.toList) := h.insertAll t.toList
  constructor
  · intro m hm
    rcases List.mem_append.1 (hunion.kept m hm) with hfirst | hsecond
    · exact List.mem_append_left _ hfirst
    · exact List.mem_append_right _ (h'.kept m (mem_toList.1 hsecond))
  · intro m hm
    rcases List.mem_append.1 hm with hfirst | hsecond
    · exact hunion.covered m (List.mem_append_left _ hfirst)
    · obtain ⟨c, hc, hmc⟩ := h'.covered m hsecond
      obtain ⟨d, hd, hcd⟩ := hunion.covered c (List.mem_append_right _ (mem_toList.2 hc))
      exact ⟨d, hd, Locator.isWithin_trans hmc hcd⟩

/-- **Sets for the same locators are the same set.** -/
theorem eq_of_mem_iff (h : s.Covers locators) (h' : t.Covers others)
    (hsame : ∀ l, l ∈ locators ↔ l ∈ others) : s = t :=
  LocatorSet.ext fun l => by
    rw [h.mem_iff_outermost, h'.mem_iff_outermost, Locator.outermost_congr hsame]

end Covers

/-! ## Ways to put a set together -/

/-- **A way to put a set together.** -/
inductive Assembly where
  | empty
  | insert (a : Assembly) (l : Locator)
  | union (a b : Assembly)
  | ofList (locators : List Locator)

namespace Assembly

/-- The set that is put together. -/
def build : Assembly → LocatorSet
  | empty => .empty
  | insert a l => a.build.insert l
  | union a b => a.build.union b.build
  | ofList locators => .ofList locators

/-- All that was put in, whatever became of it. -/
def putIn : Assembly → List Locator
  | empty => []
  | insert a l => a.putIn ++ [l]
  | union a b => a.putIn ++ b.putIn
  | ofList locators => locators

/-- **Each way keeps the outermost of what was put in.** -/
theorem covers_build (a : Assembly) : a.build.Covers a.putIn := by
  induction a with
  | empty => exact .empty
  | insert a l ih => exact ih.insert l
  | union a b iha ihb => exact iha.union ihb
  | ofList locators => exact .ofList locators

/-- **The way does not matter.** -/
theorem build_congr {a b : Assembly} (h : ∀ l, l ∈ a.putIn ↔ l ∈ b.putIn) :
    a.build = b.build :=
  a.covers_build.eq_of_mem_iff b.covers_build h

end Assembly

/-! ## Edited properties -/

/-- The locators that an edit of a property puts into a set. -/
def putInBy (name : String) : List Locator :=
  match ShapeAttribute.ofName? name with
  | some a => parametersOf a ++ [.points]
  | none => (DirtyBits.ofProperty name).locators.toList

theorem invalidateProperty_eq (s : LocatorSet) (name : String) :
    s.invalidateProperty name = s.insertAll (putInBy name) := by
  unfold invalidateProperty putInBy
  cases ShapeAttribute.ofName? name <;> rfl

/-- What some edits make stale is a set for all that they put in. -/
theorem covers_invalidatedBy (names : List String) :
    (invalidatedBy names).Covers (names.flatMap putInBy) := by
  have hlist : invalidatedBy names = ofList (names.flatMap putInBy) := by
    rw [invalidatedBy, ofList, LocatorSet.insertAll, List.foldl_flatMap]
    exact List.foldl_ext _ _ _ fun s name _ => s.invalidateProperty_eq name
  rw [hlist]
  exact .ofList _

/-- **Edits of the same properties make the same stale**, in any order and with any repetitions. -/
theorem invalidatedBy_congr {xs ys : List String} (h : ∀ name, name ∈ xs ↔ name ∈ ys) :
    invalidatedBy xs = invalidatedBy ys :=
  (covers_invalidatedBy xs).eq_of_mem_iff (covers_invalidatedBy ys) fun l => by
    simp only [List.mem_flatMap, h]

/-- **A set is the minimal cover of what was put in.** It keeps the outermost locators and no
others, so none that leads through another; it concerns what lies around or within some locator that
was put in; and the same locators make the same set, whatever the way they are put in. So edits may
be reported in two groups in either order, or apart and united. -/
theorem minimal_cover :
    (∀ a : Assembly,
      (∀ l, l ∈ a.build.members ↔ l.Outermost a.putIn) ∧
      (∀ l ∈ a.build.members, ∀ m ∈ a.build.members, l.elements <+: m.elements → l = m) ∧
      ∀ l, a.build.intersects l ↔
        ∃ m ∈ a.putIn, m.elements <+: l.elements ∨ l.elements <+: m.elements) ∧
    (∀ a b : Assembly, (∀ l, l ∈ a.putIn ↔ l ∈ b.putIn) → a.build = b.build) ∧
    ∀ xs ys : List String,
      invalidatedBy (xs ++ ys) = invalidatedBy (ys ++ xs) ∧
      invalidatedBy (xs ++ ys) = (invalidatedBy xs).union (invalidatedBy ys) := by
  refine ⟨fun a => ⟨fun l => ?_, fun l hl m hm hprefix => ?_, fun l => ?_⟩, fun a b h => ?_,
    fun xs ys => ⟨?_, ?_⟩⟩
  · exact a.covers_build.mem_iff_outermost
  · have houtermost := a.covers_build.mem_iff_outermost.1 hm
    exact houtermost.2 l (a.covers_build.kept l hl) (Locator.isWithin_iff.2 hprefix)
  · rw [a.covers_build.intersects_iff]
    simp only [Locator.intersects_iff, or_comm]
  · exact Assembly.build_congr h
  · exact invalidatedBy_congr fun name => by rw [List.mem_append, List.mem_append, or_comm]
  · have hunited := (covers_invalidatedBy xs).union (covers_invalidatedBy ys)
    rw [← List.flatMap_append] at hunited
    exact (covers_invalidatedBy (xs ++ ys)).eq_of_mem_iff hunited fun _ => Iff.rfl

/-- Locators one after another, what lies within before and behind what lies around it. -/
def stepwise : Assembly :=
  [.points, .topology, .primvars, .points, ⟨[""]⟩].foldl .insert .empty

/-- The same locators, in two sets that are united. -/
def united : Assembly :=
  .union (.ofList [⟨[""]⟩, .primvars]) (.ofList [.topology, .points])

theorem minimal_cover_reordered :
    stepwise.build = united.build ∧ stepwise.build.toList = [⟨[""]⟩, .topology, .primvars] := by
  obtain ⟨-, hsame, -⟩ := minimal_cover
  have hmem : ∀ l, l ∈ stepwise.putIn ↔ l ∈ united.putIn := by
    intro l
    simp only [stepwise, united, List.foldl_cons, List.foldl_nil, Assembly.putIn, List.mem_append,
      List.mem_cons, List.not_mem_nil]
    tauto
  exact ⟨hsame stepwise united hmem, by decide +kernel⟩

end LocatorSet

end CapsuleImaging
