import CapsuleImaging.Capsule.Parameters
import CapsuleImaging.Proofs.Mesh.Slices
import Mathlib.Data.List.Basic

/-!
# Points and faces count the same

The points of a capsule and the faces that visit them are built apart: the one from the sweep as it
is used, the other from the sweep as it was given. Both come to the same grid, since a sweep that is
used is used unchanged (`effective_effective`). What is pushed are the `positions` of a shape, as
they are stored (`toList_pointsInto`). So there are exactly as many points as the grid counts
(`length_points`), and no face goes beyond them (`validate_topology`).
-/

namespace CapsuleImaging

namespace Sweep

/-- The bounds of a sweep are kept as they are. -/
theorem effective_bounds : effective (-360) = -360 ∧ effective 360 = 360 := by
  decide +kernel

/-- **A sweep that is used is used unchanged.** -/
theorem effective_effective (degrees : Float) :
    effective (effective degrees) = effective degrees := by
  -- finite sweeps are clamped, all others are whole; the bounds of the clamp are fixed by it
  by_cases hfinite : degrees.isFinite
  · have hclamp : effective degrees = clamp (-360) 360 degrees := if_pos hfinite
    by_cases hlow : degrees < -360
    · have hvalue : effective degrees = -360 := by rw [hclamp, clamp, if_pos hlow]
      rw [hvalue, effective_bounds.1]
    · by_cases hhigh : 360 < degrees
      · have hvalue : effective degrees = 360 := by rw [hclamp, clamp, if_neg hlow, if_pos hhigh]
        rw [hvalue, effective_bounds.2]
      · have hvalue : effective degrees = degrees := by
          rw [hclamp, clamp, if_neg hlow, if_neg hhigh]
        rw [hvalue, hvalue]
  · have hvalue : effective degrees = 360 := if_neg hfinite
    rw [hvalue, effective_bounds.2]

/-- Whether the body closes can be asked of either sweep. -/
theorem closes_effective (degrees : Float) : closes (effective degrees) = closes degrees := by
  rw [closes, effective_effective, closes]

end Sweep

namespace Grid

variable {g : Grid}

/-! ## Numbers of points -/

theorem radial_le_ringLength : g.radial ≤ g.ringLength := by
  unfold ringLength
  split <;> omega

/-- The column after one is a column. -/
theorem next_lt {column : Nat} (h : column < g.radial) : g.next column < g.ringLength := by
  unfold next ringLength
  split
  · exact Nat.mod_lt _ (by omega)
  · omega

theorem pointCount_eq (hg : g.IsRenderable) : g.pointCount = g.rings * g.ringLength + 2 :=
  if_pos hg

/-- A grid with a body has a ring in either cap. -/
theorem two_le_rings (hg : g.IsRenderable) : 2 ≤ g.rings := by
  have hcap : 1 ≤ g.capAxial := hg.2
  unfold rings
  omega

theorem vertex_lt_topPole {ring column : Nat} (hring : ring < g.rings)
    (hcolumn : column < g.ringLength) : g.vertex ring column < g.topPole := by
  have hrow : (ring + 1) * g.ringLength ≤ g.rings * g.ringLength :=
    Nat.mul_le_mul_right _ hring
  rw [Nat.add_mul, Nat.one_mul] at hrow
  -- with the product of rings and columns an atom, the rest is linear
  unfold topPole vertex
  omega

theorem topPole_lt (hg : g.IsRenderable) : g.topPole < g.pointCount := by
  rw [pointCount_eq hg, topPole, vertex]
  omega

theorem vertex_lt (hg : g.IsRenderable) {ring column : Nat} (hring : ring < g.rings)
    (hcolumn : column < g.ringLength) : g.vertex ring column < g.pointCount :=
  Nat.lt_trans (vertex_lt_topPole hring hcolumn) (topPole_lt hg)

theorem bottomPole_lt (hg : g.IsRenderable) : bottomPole < g.pointCount := by
  rw [pointCount_eq hg, bottomPole]
  omega

/-! ## Faces -/

/-- A face is a triangle at a pole or a quad between two rings. -/
theorem mem_faces {face : List Nat} : face ∈ g.faces ↔
    (∃ i < g.radial, face = [bottomPole, g.vertex 0 (g.next i), g.vertex 0 i]) ∨
    (∃ k < g.rings - 1, ∃ i < g.radial, face = [g.vertex k i, g.vertex k (g.next i),
      g.vertex (k + 1) (g.next i), g.vertex (k + 1) i]) ∨
    (∃ i < g.radial, face = [g.vertex (g.rings - 1) i, g.vertex (g.rings - 1) (g.next i),
      g.topPole]) := by
  simp only [faces, bottomFan, strip, topFan, List.mem_append, List.mem_map, List.mem_flatMap,
    List.mem_range, or_assoc, eq_comm (b := face)]

theorem length_of_mem_bottomFan {face : List Nat} (hface : face ∈ g.bottomFan) :
    face.length = 3 := by
  obtain ⟨i, -, rfl⟩ := List.mem_map.1 hface
  rfl

theorem length_of_mem_strips {face : List Nat}
    (hface : face ∈ (List.range (g.rings - 1)).flatMap g.strip) : face.length = 4 := by
  obtain ⟨k, -, hstrip⟩ := List.mem_flatMap.1 hface
  obtain ⟨i, -, rfl⟩ := List.mem_map.1 hstrip
  rfl

theorem length_of_mem_topFan {face : List Nat} (hface : face ∈ g.topFan) : face.length = 3 := by
  obtain ⟨i, -, rfl⟩ := List.mem_map.1 hface
  rfl

/-- A face is a triangle or a quad. -/
theorem length_of_mem_faces {face : List Nat} (hface : face ∈ g.faces) :
    face.length = 3 ∨ face.length = 4 := by
  rcases List.mem_append.1 hface with hlow | htop
  · rcases List.mem_append.1 hlow with hbottom | hstrips
    · exact Or.inl (length_of_mem_bottomFan hbottom)
    · exact Or.inr (length_of_mem_strips hstrips)
  · exact Or.inl (length_of_mem_topFan htop)

/-- **No face goes beyond the points.** -/
theorem lt_pointCount_of_mem_faces (hg : g.IsRenderable) {face : List Nat} (hface : face ∈ g.faces)
    {i : Nat} (hi : i ∈ face) : i < g.pointCount := by
  have hrings := two_le_rings hg
  have hcolumn : ∀ j < g.radial, j < g.ringLength := fun j hj =>
    Nat.lt_of_lt_of_le hj radial_le_ringLength
  rcases mem_faces.1 hface with ⟨j, hj, rfl⟩ | ⟨k, hk, j, hj, rfl⟩ | ⟨j, hj, rfl⟩
  · simp only [List.mem_cons, List.not_mem_nil, or_false] at hi
    rcases hi with rfl | rfl | rfl
    · exact bottomPole_lt hg
    · exact vertex_lt hg (by omega) (next_lt hj)
    · exact vertex_lt hg (by omega) (hcolumn j hj)
  · simp only [List.mem_cons, List.not_mem_nil, or_false] at hi
    rcases hi with rfl | rfl | rfl | rfl
    · exact vertex_lt hg (by omega) (hcolumn j hj)
    · exact vertex_lt hg (by omega) (next_lt hj)
    · exact vertex_lt hg (by omega) (next_lt hj)
    · exact vertex_lt hg (by omega) (hcolumn j hj)
  · simp only [List.mem_cons, List.not_mem_nil, or_false] at hi
    rcases hi with rfl | rfl | rfl
    · exact vertex_lt hg (by omega) (hcolumn j hj)
    · exact vertex_lt hg (by omega) (next_lt hj)
    · exact topPole_lt hg

theorem length_le_four_of_mem_faces {face : List Nat} (hface : face ∈ g.faces) :
    face.length ≤ 4 := by
  rcases length_of_mem_faces hface with hthree | hfour
  · omega
  · omega

end Grid

namespace MeshTopology

/-- A word of 32 bits is at most the number it was made of. -/
theorem toNat_ofNat_le (n : Nat) : (UInt32.ofNat n).toNat ≤ n := by
  rw [UInt32.toNat_ofNat']
  exact Nat.mod_le _ _

/-- Faces that are not too long are counted as they are. -/
theorem counted_ofFaces {faces : List (List Nat)}
    (hlength : ∀ face ∈ faces, face.length < UInt32.size) :
    (ofFaces faces).counted = (ofFaces faces).indices.length := by
  rw [counted_eq, ← length_flatten_of_map_length (map_length_ofFaces hlength),
    ← List.map_flatten, ofFaces]

/-- **The buffers of some faces fit** a number of points that none of them goes beyond. -/
theorem validate_ofFaces {faces : List (List Nat)} {points : Nat}
    (hlength : ∀ face ∈ faces, face.length < UInt32.size)
    (hindex : ∀ face ∈ faces, ∀ i ∈ face, i < points) :
    (ofFaces faces).validate points = .ok () := by
  refine validate_eq_ok_iff.2 ⟨counted_ofFaces hlength, fun index hmem => ?_⟩
  obtain ⟨i, hi, rfl⟩ := List.mem_map.1 hmem
  obtain ⟨face, hface, hi⟩ := List.mem_flatten.1 hi
  exact Nat.lt_of_le_of_lt (toNat_ofNat_le i) (hindex face hface i hi)

end MeshTopology

/-- **The connectivity of a grid fits its points.** -/
theorem Grid.validate_topology (g : Grid) : g.topology.validate g.pointCount = .ok () := by
  unfold topology
  split
  · next hg =>
    refine MeshTopology.validate_ofFaces (fun face hface => ?_) fun face hface i hi =>
      lt_pointCount_of_mem_faces hg hface hi
    have hfour := length_le_four_of_mem_faces hface
    exact Nat.lt_of_le_of_lt hfour (by decide)
  · next hg => rfl

namespace CapsuleShape

/-- The points are laid out on the grid of the sweep as it was given. -/
theorem grid_eq (shape : CapsuleShape) (radial capAxial : Nat) :
    shape.grid radial capAxial = .ofSweep radial capAxial shape.sweep := by
  rw [grid, Grid.ofSweep, Sweep.closes_effective, Grid.ofSweep]

/-! ## Positions of points -/

/-- The positions of a ring of some radius and height. -/
def row (shape : CapsuleShape) (radial capAxial : Nat) (ring : Float × Float) : List Vec3 :=
  (directions (Sweep.effective shape.sweep) radial (shape.grid radial capAxial).ringLength).map
    (onRing ring)

/-- The positions of all points, in the capsule's own space. -/
def positions (shape : CapsuleShape) (radial capAxial : Nat) : List Vec3 :=
  shape.bottomPole ::
    ((List.range' 1 capAxial).flatMap fun step =>
      shape.row radial capAxial (shape.bottomRing capAxial step)) ++
    ((List.range capAxial).flatMap fun step =>
      shape.row radial capAxial (shape.topRing capAxial step)) ++
    [shape.topPole]

variable (shape : CapsuleShape) (radial capAxial : Nat) (frame : Option Frame)

theorem length_row (ring : Float × Float) :
    (shape.row radial capAxial ring).length = (shape.grid radial capAxial).ringLength := by
  rw [row, directions, List.length_map, List.length_map, List.length_range]

theorem length_positions :
    (shape.positions radial capAxial).length =
      (shape.grid radial capAxial).rings * (shape.grid radial capAxial).ringLength + 2 := by
  have hrings : (shape.grid radial capAxial).rings = 2 * capAxial := rfl
  rw [hrings]
  simp only [positions, List.length_append, List.length_cons, List.length_flatMap, length_row,
    List.length_range, List.length_range', List.map_const', List.sum_replicate_nat,
    List.length_nil, Nat.mul_assoc]
  omega

theorem toList_pushRing (directions : List (Float × Float)) (out : Array Point)
    (ring : Float × Float) : (pushRing frame directions out ring).toList =
      out.toList ++ (directions.map (onRing ring)).map (place frame) := by
  rw [pushRing, List.foldl_push_eq_append, Array.toList_append, List.map_map]
  rfl

/-- Pushing one ring after another appends all of them. -/
theorem toList_foldl_pushRing (directions : List (Float × Float)) (ring : Nat → Float × Float)
    (steps : List Nat) (out : Array Point) :
    (steps.foldl (fun out step => pushRing frame directions out (ring step)) out).toList =
      out.toList ++
        (steps.flatMap fun step => directions.map (onRing (ring step))).map (place frame) := by
  induction steps generalizing out with
  | nil => rw [List.foldl_nil, List.flatMap_nil, List.map_nil, List.append_nil]
  | cons step rest ih =>
    rw [List.foldl_cons, ih, toList_pushRing, List.flatMap_cons, List.map_append, List.append_assoc]

/-- **Pushing appends the positions as they are stored.** -/
theorem toList_pointsInto (hg : (shape.grid radial capAxial).IsRenderable)
    (buffer : Array Point) : (shape.pointsInto buffer radial capAxial frame).toList =
      buffer.toList ++ (shape.positions radial capAxial).map (place frame) := by
  unfold pointsInto
  dsimp only
  rw [if_pos hg, Array.toList_push, toList_foldl_pushRing, toList_foldl_pushRing,
    Array.toList_push]
  simp only [positions, row, List.map_append, List.map_cons, List.map_nil, List.append_assoc,
    List.cons_append, List.nil_append]

theorem points_of_isRenderable (hg : (shape.grid radial capAxial).IsRenderable) :
    shape.points radial capAxial frame = (shape.positions radial capAxial).map (place frame) :=
  shape.toList_pointsInto radial capAxial frame hg #[]

theorem points_of_not_isRenderable (hg : ¬ (shape.grid radial capAxial).IsRenderable) :
    shape.points radial capAxial frame = [] := by
  rw [points, pointsInto]
  exact congrArg Array.toList (if_neg hg)

/-- **There are as many points as the grid counts.** -/
theorem length_points :
    (shape.points radial capAxial frame).length =
      (Grid.ofSweep radial capAxial shape.sweep).pointCount := by
  rw [← grid_eq, Grid.pointCount]
  split
  · next hg =>
    rw [points_of_isRenderable shape radial capAxial frame hg, List.length_map, length_positions]
  · next hg => rw [points_of_not_isRenderable shape radial capAxial frame hg, List.length_nil]

end CapsuleShape

/-- Whatever the measures and the axis, the points are as many as the tessellation has it. -/
theorem ShapeParameters.length_points (p : ShapeParameters) :
    p.points.length = p.tessellation.grid.pointCount :=
  CapsuleShape.length_points _ _ _ _

end CapsuleImaging
