import CapsuleImaging.Proofs.Scene.Elements
import CapsuleImaging.Scene.Stage

/-!
# Removing a subtree

A removal takes the prims that are below its path by their texts (`takenWith`), each with an event
of its own, and the prim itself last. Where all paths have been read these are the prims whose paths
go on behind the elements of the one removed, however the texts of its siblings begin and wherever
they fall in the order. Only the root goes alone: by the texts nothing is below it.
-/

namespace CapsuleImaging

open Std

namespace Stage

/-- The prims that go with a prim when it is removed, in order of path. -/
def takenWith (s : Stage) (path : PrimPath) : List PrimPath :=
  (s.prims.erase path).keys.filter path.isBelow

variable {s : Stage} {path q : PrimPath} {prim : PrimRecord}

theorem mem_takenWith : q ∈ s.takenWith path ↔ path ≠ q ∧ q ∈ s.prims ∧ path.isBelow q := by
  rw [takenWith, List.mem_filter, ExtTreeMap.mem_keys, ExtTreeMap.mem_erase,
    Std.compare_ne_eq_iff_ne, and_assoc]

/-- No prim goes twice, and they go in ascending order. -/
theorem pairwise_takenWith : (s.takenWith path).Pairwise (compare · · = .lt) :=
  ExtTreeMap.ordered_keys.filter _

theorem remove_of_present (h : s.prims[path]? = some prim) :
    (s.remove path).1 = some prim ∧
      (s.remove path).2.log = s.log ++ (s.takenWith path).map .removed ++ [.removed path] := by
  simp only [remove, h, takenWith, and_self]

/-- What goes is the prim and what is taken with it; every other keeps its record. -/
theorem prims_remove_eq (h : s.prims[path]? = some prim) (q : PrimPath) :
    (s.remove path).2.prims[q]? =
      if q = path ∨ q ∈ s.takenWith path then none else s.prims[q]? := by
  rw [prims_remove h]
  by_cases hpath : path = q
  · rw [if_pos (Or.inl hpath), if_pos (Or.inl hpath.symm)]
  · by_cases hbelow : path.isBelow q
    · rw [if_pos (Or.inr hbelow)]
      split
      · rfl
      · next hkept =>
        -- below the path and not taken: it was not there
        have habsent : q ∉ s.prims := fun hmem =>
          hkept (Or.inr (mem_takenWith.2 ⟨hpath, hmem, hbelow⟩))
        exact (ExtTreeMap.getElem?_eq_none habsent).symm
    · have hkept : ¬ (q = path ∨ q ∈ s.takenWith path) := by
        rintro (heq | hmem)
        · exact hpath heq.symm
        · exact hbelow (mem_takenWith.1 hmem).2.2
      rw [if_neg hkept, if_neg fun h => h.elim hpath hbelow]

section Parsed

variable (hparsed : ∀ q ∈ s.prims, q.Parsed)

include hparsed

/-- Off the root, what is taken with a prim is what descends from it. -/
theorem mem_takenWith_iff_descends (hpath : path ∈ s.prims) (hroot : path ≠ .root) :
    q ∈ s.takenWith path ↔ q ∈ s.prims ∧ q.Descends path := by
  rw [mem_takenWith]
  constructor
  · rintro ⟨-, hmem, hbelow⟩
    exact ⟨hmem, ((hparsed path hpath).isBelow_iff hroot (hparsed q hmem)).1 hbelow⟩
  · rintro ⟨hmem, hdescends⟩
    refine ⟨?_, hmem, ((hparsed path hpath).isBelow_iff hroot (hparsed q hmem)).2 hdescends⟩
    rintro rfl
    exact hdescends.2 rfl

/-- With the root nothing is taken. -/
theorem takenWith_root : s.takenWith .root = [] := by
  rw [List.eq_nil_iff_forall_not_mem]
  intro q hq
  obtain ⟨-, hmem, hbelow⟩ := mem_takenWith.1 hq
  exact (hparsed q hmem).not_isBelow_root hbelow

/-- **Removing a prim takes exactly its subtree, unless it is the root.** The prim's record is given
back, every prim that goes has one event, those below the prim in ascending order and the prim last,
and every prim that stays keeps its record. Off the root those that go with the prim are the ones
that descend from it; the root goes alone, though every other prim descends from it. -/
theorem remove_subtree (hprim : s.prims[path]? = some prim) :
    (s.remove path).1 = some prim ∧
    ∃ below : List PrimPath,
      (s.remove path).2.log = s.log ++ below.map .removed ++ [.removed path] ∧
      below.Pairwise (compare · · = .lt) ∧
      (∀ q, (s.remove path).2.prims[q]? =
        if q = path ∨ q ∈ below then none else s.prims[q]?) ∧
      (path ≠ .root → ∀ q, q ∈ below ↔ q ∈ s.prims ∧ q.Descends path) ∧
      (path = .root → below = [] ∧ ∀ q ∈ s.prims, q ≠ path → q.Descends path) := by
  obtain ⟨hrecord, hlog⟩ := remove_of_present hprim
  have hpath : path ∈ s.prims :=
    ExtTreeMap.mem_iff_isSome_getElem?.2 (Option.isSome_of_eq_some hprim)
  refine ⟨hrecord, s.takenWith path, hlog, pairwise_takenWith, prims_remove_eq hprim, ?_, ?_⟩
  · intro hroot q
    exact mem_takenWith_iff_descends hparsed hpath hroot
  · rintro rfl
    exact ⟨takenWith_root hparsed, fun q hq hne => (hparsed q hq).descends_root hne⟩

end Parsed

/-- A prim with a prim below it, and others whose texts begin alike. -/
def crowdedScene : Stage :=
  (((empty.define ⟨"/a"⟩ "Scope").define ⟨"/a/b"⟩ "Capsule").define ⟨"/a-b"⟩ "Capsule").define
    ⟨"/ab"⟩ "Capsule"

theorem remove_subtree_crowded :
    (∀ q ∈ crowdedScene.prims, q.Parsed) ∧
    ∃ prim, crowdedScene.prims[PrimPath.mk "/a"]? = some prim ∧
      (crowdedScene.remove ⟨"/a"⟩).1 = some prim ∧
      ∃ below : List PrimPath,
        (crowdedScene.remove ⟨"/a"⟩).2.log =
          crowdedScene.log ++ below.map .removed ++ [.removed ⟨"/a"⟩] ∧
        (∀ q, q ∈ below ↔ q ∈ crowdedScene.prims ∧ q.Descends ⟨"/a"⟩) ∧
        (crowdedScene.remove ⟨"/a"⟩).2.paths = [⟨"/a-b"⟩, ⟨"/ab"⟩] := by
  have hparsed : ∀ q ∈ crowdedScene.prims, q.Parsed := by
    have hkeys : ∀ q ∈ crowdedScene.prims.keys, PrimPath.parse q.text = .ok q := by
      decide +kernel
    exact fun q hq => ⟨q.text, hkeys q (ExtTreeMap.mem_keys.2 hq)⟩
  have hsome : crowdedScene.prims[PrimPath.mk "/a"]?.isSome := by decide +kernel
  obtain ⟨prim, hprim⟩ := Option.isSome_iff_exists.1 hsome
  obtain ⟨hrecord, below, hlog, -, -, hbelow, -⟩ := remove_subtree hparsed hprim
  exact ⟨hparsed, prim, hprim, hrecord, below, hlog, hbelow (by decide), by decide +kernel⟩

/-- The root and a prim below it. -/
def rootedScene : Stage :=
  (empty.define .root "").define ⟨"/a"⟩ "Capsule"

/-- **What descends from the root outlives it**, and nothing is told of it. -/
theorem remove_root_keeps_descendant :
    (∀ q ∈ rootedScene.prims.keys, PrimPath.parse q.text = .ok q) ∧
      PrimPath.root ∈ rootedScene.prims ∧
      (PrimPath.mk "/a").Descends .root ∧ PrimPath.mk "/a" ∈ rootedScene.prims ∧
      PrimPath.mk "/a" ∈ (rootedScene.remove .root).2.prims ∧
      (rootedScene.remove .root).2.log = rootedScene.log ++ [.removed .root] := by
  decide +kernel

end Stage

end CapsuleImaging
