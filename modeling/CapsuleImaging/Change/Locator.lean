import Std.Data.ExtTreeSet

/-!
# Locators

Data of an imaged prim is found by a **locator**, a list of elements that leads from a container
to what it contains. Whoever holds data at one locator is concerned by a change at another when
either lies within the other.

A `LocatorSet` says where something changed. It keeps no locator that lies within another it
keeps: what is within is covered already.
-/

namespace CapsuleImaging

open Std

/-- The way to a piece of data. -/
structure Locator where
  elements : List String
deriving DecidableEq, Repr, Inhabited

namespace Locator

/-- Locators are ordered element by element, the shorter first. -/
instance : Ord Locator := ⟨compareOn elements⟩

instance : TransOrd Locator :=
  inferInstanceAs (TransCmp (compareOn elements))

instance : LawfulEqOrd Locator where
  eq_of_compare {a b} h := by
    cases a; cases b
    exact congrArg Locator.mk (Std.compare_eq_iff_eq.1 h)

/-- The outermost container. -/
def root : Locator := ⟨[]⟩

/-- A locator from its text: the parts between slashes, those that are empty left out. -/
def parse (text : String) : Locator :=
  ⟨((text.toList.splitOn '/').filter (· ≠ [])).map String.ofList⟩

/-- The elements with a slash between each two. -/
def text (l : Locator) : String :=
  "/".intercalate l.elements

/-- The locator of an element within. -/
def append (l : Locator) (name : String) : Locator :=
  ⟨l.elements ++ [name]⟩

/-- Whether a locator leads through another, or to it. -/
def isWithin (l container : Locator) : Bool :=
  container.elements.isPrefixOf l.elements

/-- Whether a change at one locator concerns data at the other. -/
def intersects (a b : Locator) : Bool :=
  a.isWithin b || b.isWithin a

/-! ## Where a capsule's data is -/

/-- The positions of the points. -/
def points : Locator := ⟨["primvars", "points"]⟩

/-- All values spread over the surface, the positions among them. -/
def primvars : Locator := ⟨["primvars"]⟩

/-- The connectivity. -/
def topology : Locator := ⟨["mesh", "topology"]⟩

/-- Whether the faces show on both sides. -/
def doubleSided : Locator := ⟨["mesh", "doubleSided"]⟩

/-- A parameter of the capsule. -/
def capsule (parameter : String) : Locator := ⟨["capsule", parameter]⟩

/-- Where the prim stands. -/
def xform : Locator := ⟨["xform"]⟩

/-- Whether the prim is shown. -/
def visibility : Locator := ⟨["visibility"]⟩

/-- The box around the prim. -/
def extent : Locator := ⟨["extent"]⟩

/-- The materials of the prim. -/
def materialBindings : Locator := ⟨["materialBindings"]⟩

end Locator

/-- Where something changed, as locators none of which lies within another. -/
structure LocatorSet where
  members : ExtTreeSet Locator
  minimal : ∀ a ∈ members, ∀ b ∈ members, a.isWithin b → a = b

namespace LocatorSet

/-- Nowhere. -/
def empty : LocatorSet where
  members := ∅
  minimal := by simp

/-- The locators of the set, in order. -/
def toList (s : LocatorSet) : List Locator :=
  s.members.toList

@[simp]
theorem mem_toList {s : LocatorSet} {l : Locator} : l ∈ s.toList ↔ l ∈ s.members :=
  ExtTreeSet.mem_toList

/-- **Add a locator.** If it lies within one that is there, nothing changes; if not, those that
lie within it give way to it. -/
def insert (s : LocatorSet) (l : Locator) : LocatorSet :=
  if covered : s.members.toList.any l.isWithin then s
  else
    { members := (s.members.filter fun m => !m.isWithin l).insert l
      minimal := by
        have := s.minimal
        simp only [ExtTreeSet.mem_insert, ExtTreeSet.mem_filter, Std.compare_eq_iff_eq]
        simp at covered
        grind }

/-- A locator that was covered leaves the set as it is. -/
theorem insert_of_covered {s : LocatorSet} {l m : Locator} (hm : m ∈ s.members)
    (h : l.isWithin m) : s.insert l = s := by
  have : s.members.toList.any l.isWithin := by
    simp only [List.any_eq_true, ExtTreeSet.mem_toList]
    exact ⟨m, hm, h⟩
  simp [insert, this]

/-- A locator that was not covered stands beside those that do not lie within it. -/
theorem mem_insert_of_not_covered {s : LocatorSet} {l a : Locator}
    (h : ∀ m ∈ s.members, ¬ l.isWithin m) :
    a ∈ (s.insert l).members ↔ a = l ∨ a ∈ s.members ∧ ¬ a.isWithin l := by
  have : ¬ s.members.toList.any l.isWithin := by simpa using h
  simp only [insert, this, Bool.false_eq_true, ↓reduceDIte, ExtTreeSet.mem_insert,
    ExtTreeSet.mem_filter, Std.compare_eq_iff_eq]
  grind

/-- Add each locator of a list. -/
def insertAll (s : LocatorSet) (locators : List Locator) : LocatorSet :=
  locators.foldl insert s

/-- The set that covers some locators. -/
def ofList (locators : List Locator) : LocatorSet :=
  empty.insertAll locators

/-- Everywhere. -/
def universal : LocatorSet :=
  empty.insert .root

/-- The set that covers what either of two covers. -/
def union (s t : LocatorSet) : LocatorSet :=
  s.insertAll t.toList

/-- Whether a locator is itself kept. -/
def contains (s : LocatorSet) (l : Locator) : Bool :=
  s.members.contains l

/-- Whether a change in the set concerns data at a locator. -/
def intersects (s : LocatorSet) (l : Locator) : Bool :=
  s.toList.any (·.intersects l)

/-- How many locators are kept. -/
def size (s : LocatorSet) : Nat :=
  s.members.size

/-- Whether no locator is kept. -/
def isEmpty (s : LocatorSet) : Bool :=
  s.members.isEmpty

end LocatorSet

end CapsuleImaging
