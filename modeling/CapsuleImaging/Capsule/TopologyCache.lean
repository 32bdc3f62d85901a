import CapsuleImaging.Capsule.Grid
import Std.Data.ExtTreeMap

/-!
# Shared connectivity

Capsules of one grid have one connectivity, so it is built once and kept. A cache holds what has
been asked of it so far; several caches stand side by side, and whoever shares one names the
same slot.
-/

namespace CapsuleImaging

open Std

namespace Grid

/-- Grids in order of columns, then rings, then the open before the closed. -/
instance : Ord Grid :=
  ⟨compareLex (compareOn radial) (compareLex (compareOn capAxial) (compareOn closed))⟩

instance : TransOrd Grid :=
  inferInstanceAs
    (TransCmp (compareLex (compareOn radial) (compareLex (compareOn capAxial) (compareOn closed))))

instance : LawfulEqOrd Grid where
  eq_of_compare {a b} h := by
    obtain ⟨hr, hc, hb⟩ := compareLex_eq_eq.1 h |>.imp_right compareLex_eq_eq.1
    obtain ⟨ra, ca, ba⟩ := a
    obtain ⟨rb, cb, bb⟩ := b
    have hr : ra = rb := Std.compare_eq_iff_eq.1 hr
    have hc : ca = cb := Std.compare_eq_iff_eq.1 hc
    have hb : ba = bb := Std.compare_eq_iff_eq.1 hb
    rw [hr, hc, hb]

end Grid

/-- The connectivities built so far, by grid. What is kept is what the grid gives. -/
structure TopologyCache where
  entries : ExtTreeMap Grid MeshTopology
  generated : ∀ (g : Grid) (m : MeshTopology), entries[g]? = some m → m = g.topology

namespace TopologyCache

/-- Nothing built yet. -/
def empty : TopologyCache where
  entries := ∅
  generated := by simp

/-- How many connectivities have been built. -/
def size (c : TopologyCache) : Nat :=
  c.entries.size

/-- **Ask for a connectivity**: the one kept, or else a new one, which is kept from now on. -/
def request (c : TopologyCache) (g : Grid) : MeshTopology × TopologyCache :=
  match c.entries[g]? with
  | some topology => (topology, c)
  | none =>
    (g.topology,
      { entries := c.entries.insert g g.topology
        generated := by
          intro h m
          have := c.generated h m
          grind })

/-- What is answered does not depend on what was asked before. -/
@[simp]
theorem request_fst (c : TopologyCache) (g : Grid) : (c.request g).1 = g.topology := by
  unfold request
  split
  · next h => exact c.generated g _ h
  · rfl

/-- A request adds its own grid and leaves the others as they are. -/
theorem entries_request (c : TopologyCache) (g h : Grid) :
    (c.request g).2.entries[h]? = if g = h then some g.topology else c.entries[h]? := by
  unfold request
  split
  · next m hm =>
    have := c.generated g m hm
    grind
  · grind

end TopologyCache

/-- Caches side by side, each in a numbered slot; a slot that was never used is empty. -/
structure CacheBank where
  slots : ExtTreeMap Nat TopologyCache

namespace CacheBank

/-- All slots empty. -/
def empty : CacheBank := ⟨∅⟩

/-- The cache in a slot. -/
def cache (b : CacheBank) (slot : Nat) : TopologyCache :=
  b.slots[slot]?.getD .empty

/-- Ask the cache in a slot. -/
def request (b : CacheBank) (slot : Nat) (g : Grid) : MeshTopology × CacheBank :=
  let (topology, cache) := (b.cache slot).request g
  (topology, ⟨b.slots.insert slot cache⟩)

@[simp]
theorem request_fst (b : CacheBank) (slot : Nat) (g : Grid) :
    (b.request slot g).1 = g.topology :=
  (b.cache slot).request_fst g

/-- A request goes to the cache in its slot and to no other. -/
theorem cache_request (b : CacheBank) (slot other : Nat) (g : Grid) :
    (b.request slot g).2.cache other =
      if slot = other then ((b.cache slot).request g).2 else b.cache other := by
  simp only [request, cache, ExtTreeMap.getElem?_insert, Std.compare_eq_iff_eq]
  split <;> rfl

end CacheBank

end CapsuleImaging
