import CapsuleImaging.Mesh.Topology
import Mathlib.Data.List.Basic

/-!
# Faces as slices of the indices

The faces may also be cut with the indices left whole, by an offset that runs along them: each face
is the slice from the offset on, as long as its count says, and its end is where the next one begins
(`slicesFrom?`). The offset a face begins at is the sum of the counts before it, so a slice that
runs past the end is met if and only if all counts together do (`slicesFrom?_eq_cut?`,
`cut?_eq_none_iff`). Otherwise the slices lie one behind another, with nothing left out between
(`cut?_eq_some_iff`).

That the counts take up the indices exactly is what `MeshTopology.validate` asks for first. So the
faces of what passes can be gone through, and lead to points that are there (`validate_exact`).
-/

namespace CapsuleImaging

namespace MeshTopology

/-- How many indices some counts take. -/
def total (counts : List UInt32) : Nat :=
  counts.foldr (fun count total => count.toNat + total) 0

/-- The indices from one place up to another, unless that runs past the end. -/
def slice? (indices : List UInt32) (start stop : Nat) : Option (List UInt32) :=
  if stop ≤ indices.length then some ((indices.drop start).take (stop - start)) else none

/-- The slices that some counts cut from an offset on, or nothing if one runs past the end. -/
def slicesFrom? (indices : List UInt32) : Nat → List UInt32 → Option (List (List UInt32))
  | _, [] => some []
  | start, count :: counts =>
    (slice? indices start (start + count.toNat)).bind fun face =>
      (slicesFrom? indices (start + count.toNat) counts).map (face :: ·)

variable {m : MeshTopology} {counts indices : List UInt32} {faces : List (List UInt32)}
  {points : Nat}

theorem total_cons (count : UInt32) (counts : List UInt32) :
    total (count :: counts) = count.toNat + total counts := rfl

theorem counted_eq (m : MeshTopology) : m.counted = total m.counts := rfl

/-- Faces of given lengths take as many indices as the lengths say. -/
theorem length_flatten_of_map_length
    (h : faces.map List.length = counts.map UInt32.toNat) :
    faces.flatten.length = total counts := by
  induction counts generalizing faces with
  | nil =>
    rw [List.map_eq_nil_iff.1 h]
    rfl
  | cons count rest ih =>
    cases faces with
    | nil => cases h
    | cons face later =>
      obtain ⟨hlength, hlengths⟩ := List.cons.inj h
      rw [List.flatten_cons, List.length_append, hlength, ih hlengths, total_cons]

/-! ## Totals in words -/

/-- How many indices some counts take, in words of 64 bits. -/
def totalInWords (counts : List UInt32) : UInt64 :=
  counts.foldl (fun total count => total + count.toUInt64) 0

/-- Words forget of a total what is beyond them. -/
theorem toNat_foldl_totalInWords (counts : List UInt32) (start : UInt64) :
    (counts.foldl (fun total count => total + count.toUInt64) start).toNat =
      (start.toNat + total counts) % UInt64.size := by
  induction counts generalizing start with
  | nil => exact (Nat.mod_eq_of_lt start.toNat_lt_size).symm
  | cons count rest ih =>
    rw [List.foldl_cons, ih, UInt64.toNat_add, UInt32.toNat_toUInt64, total_cons, ← Nat.add_assoc]
    exact Nat.mod_add_mod _ _ _

theorem total_le (counts : List UInt32) : total counts ≤ counts.length * (UInt32.size - 1) := by
  induction counts with
  | nil => exact Nat.zero_le _
  | cons count rest ih =>
    have hcount := count.toNat_lt_size
    rw [total_cons, List.length_cons, Nat.add_mul, Nat.one_mul]
    omega

/-- **The counts of up to `2 ^ 32` faces add up in words as they do in numbers.** -/
theorem toNat_totalInWords (h : counts.length ≤ UInt32.size) :
    (totalInWords counts).toNat = total counts := by
  have hbound := Nat.le_trans (total_le counts) (Nat.mul_le_mul_right _ h)
  have hwords : UInt32.size * (UInt32.size - 1) < UInt64.size := by decide
  rw [totalInWords, toNat_foldl_totalInWords, UInt64.toNat_zero, Nat.zero_add]
  exact Nat.mod_eq_of_lt (Nat.lt_of_le_of_lt hbound hwords)

/-! ## Cutting -/

/-- **A running offset cuts what is left behind it.** -/
theorem slicesFrom?_eq_cut? {start : Nat} (hstart : start ≤ indices.length) :
    slicesFrom? indices start counts = cut? counts (indices.drop start) := by
  induction counts generalizing start with
  | nil => rfl
  | cons count rest ih =>
    rw [slicesFrom?, slice?, cut?, List.length_drop, Nat.add_sub_cancel_left, List.drop_drop]
    by_cases hfits : start + count.toNat ≤ indices.length
    · rw [if_pos hfits, if_pos (by omega), Option.bind_some, ih hfits]
    · rw [if_neg hfits, if_neg (by omega), Option.bind_none]

/-- **The indices run out if and only if the counts ask for more than there are.** -/
theorem cut?_eq_none_iff : cut? counts indices = none ↔ indices.length < total counts := by
  induction counts generalizing indices with
  | nil => simp [cut?, total]
  | cons count rest ih =>
    rw [cut?, total_cons]
    split
    · rw [Option.map_eq_none_iff, ih, List.length_drop]
      omega
    · exact iff_of_true rfl (by omega)

/-- **The faces that are cut** have the lengths that are asked for, and in a row they are the
indices in front. -/
theorem cut?_eq_some_iff : cut? counts indices = some faces ↔
    faces.map List.length = counts.map UInt32.toNat ∧ faces.flatten <+: indices := by
  induction counts generalizing indices faces with
  | nil =>
    rw [cut?, Option.some.injEq, List.map_nil, List.map_eq_nil_iff, eq_comm]
    exact ⟨fun h => ⟨h, h ▸ List.nil_prefix⟩, And.left⟩
  | cons count rest ih =>
    rw [cut?]
    constructor
    · intro h
      split at h
      · next hfits =>
        obtain ⟨later, hlater, rfl⟩ := Option.map_eq_some_iff.1 h
        obtain ⟨hlengths, hfront⟩ := ih.1 hlater
        refine ⟨?_, ?_⟩
        · rw [List.map_cons, List.map_cons, List.length_take, Nat.min_eq_left hfits, hlengths]
        · rw [List.flatten_cons]
          conv_rhs => rw [← List.take_append_drop count.toNat indices]
          exact List.prefix_append_right_inj _ |>.2 hfront
      · cases h
    · rintro ⟨hlengths, hfront⟩
      cases faces with
      | nil => cases hlengths
      | cons face later =>
        obtain ⟨hlength, hlengths⟩ := List.cons.inj hlengths
        obtain ⟨behind, rfl⟩ := hfront
        rw [List.flatten_cons, List.append_assoc, ← hlength, if_pos (by simp),
          List.take_left, List.drop_left]
        have hcut : cut? rest (later.flatten ++ behind) = some later :=
          ih.2 ⟨hlengths, List.prefix_append _ _⟩
        rw [hcut, Option.map_some]

/-- **A face begins where the counts before it end.** -/
theorem getElem?_of_cut? (h : cut? counts indices = some faces) (k : Nat) :
    faces[k]? = counts[k]?.map fun count =>
      (indices.drop (total (counts.take k))).take count.toNat := by
  induction counts generalizing indices faces k with
  | nil =>
    cases h
    rfl
  | cons count rest ih =>
    rw [cut?] at h
    split at h
    · obtain ⟨later, hlater, rfl⟩ := Option.map_eq_some_iff.1 h
      cases k with
      | zero => rfl
      | succ k =>
        rw [List.getElem?_cons_succ, List.getElem?_cons_succ, ih hlater, List.take_succ_cons,
          total_cons, List.drop_drop]
    · cases h

theorem faces?_eq_slicesFrom? (m : MeshTopology) :
    m.faces? = slicesFrom? m.indices 0 m.counts := by
  rw [faces?, slicesFrom?_eq_cut? (Nat.zero_le _), List.drop_zero]

/-- **Where the counts take up the indices, the faces do**, and in order. -/
theorem exists_faces?_of_counted (h : m.counted = m.indices.length) :
    ∃ faces, m.faces? = some faces ∧ faces.map List.length = m.counts.map UInt32.toNat ∧
      faces.flatten = m.indices := by
  have hsome : m.faces? ≠ none := fun hnone => by
    have hlt := cut?_eq_none_iff.1 hnone
    rw [← counted_eq, h] at hlt
    exact Nat.lt_irrefl _ hlt
  obtain ⟨faces, hfaces⟩ := Option.ne_none_iff_exists'.1 hsome
  obtain ⟨hlengths, hfront⟩ := cut?_eq_some_iff.1 hfaces
  -- a part in front that is as long as the whole is the whole
  have hlength : faces.flatten.length = m.indices.length := by
    rw [← h, counted_eq, length_flatten_of_map_length hlengths]
  exact ⟨faces, hfaces, hlengths, hfront.eq_of_length hlength⟩

/-- The lengths of faces are kept as they are if they fit a word. -/
theorem map_length_ofFaces {faces : List (List Nat)}
    (hlength : ∀ face ∈ faces, face.length < UInt32.size) :
    (faces.map (·.map UInt32.ofNat)).map List.length =
      (ofFaces faces).counts.map UInt32.toNat := by
  rw [ofFaces, List.map_map, List.map_map]
  refine List.map_congr_left fun face hface => ?_
  rw [Function.comp_apply, Function.comp_apply, List.length_map,
    UInt32.toNat_ofNat_of_lt' (hlength face hface)]

/-! ## Checking -/

theorem validate_eq_ok_iff : m.validate points = .ok () ↔
    m.counted = m.indices.length ∧ ∀ i ∈ m.indices, i.toNat < points := by
  rw [validate]
  split
  · next hne => simp [hne]
  · next heq =>
    rw [and_iff_right (not_not.1 heq)]
    split
    · next index hfind =>
      have hfound := List.find?_some hfind
      have hpast : points ≤ index.toNat := of_decide_eq_true hfound
      have hmem := List.mem_of_find?_eq_some hfind
      exact iff_of_false (by simp) fun h => Nat.not_lt_of_le hpast (h index hmem)
    · next hfind => simpa using hfind

/-- The first index that names no point has only such in front of it that name one. -/
theorem find?_past_eq_some_iff {index : UInt32} :
    m.indices.find? (points ≤ ·.toNat) = some index ↔
      ∃ front back, m.indices = front ++ index :: back ∧ (∀ i ∈ front, i.toNat < points) ∧
        points ≤ index.toNat := by
  simp only [List.find?_eq_some_iff_append, decide_eq_true_eq, Bool.not_eq_true',
    decide_eq_false_iff_not, Nat.not_le]
  constructor
  · rintro ⟨hpast, front, back, hsplit, hfront⟩
    exact ⟨front, back, hsplit, hfront, hpast⟩
  · rintro ⟨front, back, hsplit, hfront, hpast⟩
    exact ⟨hpast, front, back, hsplit, hfront⟩

/-- **What is reported** are the totals if they differ, or else the first index that names no
point. -/
theorem validate_eq_error_iff {e : TopologyError} : m.validate points = .error e ↔
    (m.counted ≠ m.indices.length ∧ e = .countMismatch m.counted m.indices.length) ∨
      (m.counted = m.indices.length ∧ ∃ front index back, m.indices = front ++ index :: back ∧
        (∀ i ∈ front, i.toNat < points) ∧ points ≤ index.toNat ∧
        e = .indexOutOfRange index points) := by
  rw [validate]
  split
  · next hne =>
    rw [Except.error.injEq, and_iff_right hne, or_iff_left fun h => hne h.1, eq_comm]
  · next heq =>
    rw [or_iff_right fun h => heq h.1, and_iff_right (not_not.1 heq)]
    constructor
    · intro h
      split at h
      · next index hfind =>
        obtain ⟨front, back, hsplit, hfront, hpast⟩ := find?_past_eq_some_iff.1 hfind
        cases h
        exact ⟨front, index, back, hsplit, hfront, hpast, rfl⟩
      · cases h
    · rintro ⟨front, index, back, hsplit, hfront, hpast, rfl⟩
      rw [find?_past_eq_some_iff.2 ⟨front, back, hsplit, hfront, hpast⟩]

/-- **Checking is exact, and what passes can be gone through face by face.** A connectivity passes
exactly if the counts take up the indices and each index names a point. If not, the two totals are
reported where they differ, or else the first index that names none, and nothing besides. The faces
run out of indices exactly if the counts ask for more than there are. Where they take up all of
them, there is one face to a count, of that length, and in a row they are the indices; each begins
where the counts before it end, whether what is left is cut or an offset runs along. So the faces of
what passes are there, and their corners are points. Added up in words of 64 bits, the counts give
the same total as long as there are not more than `2 ^ 32` of them. -/
theorem validate_exact (m : MeshTopology) (points : Nat) :
    (m.validate points = .ok () ↔
      m.counted = m.indices.length ∧ ∀ i ∈ m.indices, i.toNat < points) ∧
    (∀ e, m.validate points = .error e ↔
      (m.counted ≠ m.indices.length ∧ e = .countMismatch m.counted m.indices.length) ∨
        (m.counted = m.indices.length ∧ ∃ front index back, m.indices = front ++ index :: back ∧
          (∀ i ∈ front, i.toNat < points) ∧ points ≤ index.toNat ∧
          e = .indexOutOfRange index points)) ∧
    m.faces? = slicesFrom? m.indices 0 m.counts ∧
    (m.faces? = none ↔ m.indices.length < m.counted) ∧
    (m.counted = m.indices.length → ∃ faces, m.faces? = some faces ∧
      faces.map List.length = m.counts.map UInt32.toNat ∧ faces.flatten = m.indices ∧
      ∀ k, faces[k]? = m.counts[k]?.map fun count =>
        (m.indices.drop (total (m.counts.take k))).take count.toNat) ∧
    (m.validate points = .ok () → ∃ faces, m.faces? = some faces ∧
      ∀ face ∈ faces, ∀ i ∈ face, i.toNat < points) ∧
    (m.counts.length ≤ UInt32.size → (totalInWords m.counts).toNat = m.counted) := by
  refine ⟨validate_eq_ok_iff, fun e => validate_eq_error_iff, m.faces?_eq_slicesFrom?,
    cut?_eq_none_iff, fun h => ?_, fun h => ?_, toNat_totalInWords⟩
  · obtain ⟨faces, hfaces, hlengths, hflatten⟩ := exists_faces?_of_counted h
    exact ⟨faces, hfaces, hlengths, hflatten, getElem?_of_cut? hfaces⟩
  · obtain ⟨hcounted, hindices⟩ := validate_eq_ok_iff.1 h
    obtain ⟨faces, hfaces, -, hflatten⟩ := exists_faces?_of_counted hcounted
    refine ⟨faces, hfaces, fun face hface i hi => hindices i ?_⟩
    rw [← hflatten]
    exact List.mem_flatten_of_mem hface hi

/-- A triangle and a quad with a face of no corners between them. -/
def pieced : MeshTopology where
  counts := [3, 0, 4]
  indices := [0, 1, 2, 2, 1, 3, 4]

theorem validate_exact_pieced :
    pieced.counted = pieced.indices.length ∧ pieced.validate 5 = .ok () ∧
      pieced.validate 3 = .error (.indexOutOfRange 3 3) ∧
      ∃ faces, pieced.faces? = some faces ∧ faces = [[0, 1, 2], [], [2, 1, 3, 4]] ∧
        faces.flatten = pieced.indices := by
  obtain ⟨hok, -, -, -, hfaces, -, -⟩ := validate_exact pieced 5
  obtain ⟨-, herror, -⟩ := validate_exact pieced 3
  have hcounted : pieced.counted = pieced.indices.length := by decide
  have hfive : ∀ i ∈ pieced.indices, i.toNat < 5 := by simp [pieced]
  have hthree : ∀ i ∈ [(0 : UInt32), 1, 2, 2, 1], i.toNat < 3 := by simp
  obtain ⟨faces, hcut, -, hflatten, -⟩ := hfaces hcounted
  refine ⟨hcounted, hok.2 ⟨hcounted, hfive⟩, ?_, faces, hcut, ?_, hflatten⟩
  · exact (herror _).2 (Or.inr ⟨hcounted, _, 3, [4], rfl, hthree, by decide, rfl⟩)
  · have hpieces : pieced.faces? = some [[0, 1, 2], [], [2, 1, 3, 4]] := by decide
    exact Option.some.inj (hcut.symm.trans hpieces)

end MeshTopology

end CapsuleImaging
