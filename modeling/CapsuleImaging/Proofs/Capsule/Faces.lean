import CapsuleImaging.Proofs.Capsule.Manifold

/-!
# What the faces of a capsule are

The connectivity of a grid fits its points and leaves none out. Its faces are triangles in the two
belts at the poles (`countP_triangles`), and quads in all others. No face comes to a point twice (`nodup_of_mem_faces`), since the corners of a face lie on two rungs and, between the
poles, in two columns. And every point is a corner (`exists_face_of_lt`), so the connectivity fits
no smaller number of points.
-/

namespace CapsuleImaging

namespace Grid

variable {g : Grid}

/-- **The triangles are those around the poles.** -/
theorem countP_triangles : g.faces.countP (·.length = 3) = 2 * g.radial := by
  have hbottom : g.bottomFan.countP (·.length = 3) = g.radial := by
    rw [List.countP_eq_length.2 fun face hface => decide_eq_true (length_of_mem_bottomFan hface),
      bottomFan, List.length_map, List.length_range]
  have hstrips : ((List.range (g.rings - 1)).flatMap g.strip).countP (·.length = 3) = 0 := by
    rw [List.countP_eq_zero]
    intro face hface
    simp [length_of_mem_strips hface]
  have htop : g.topFan.countP (·.length = 3) = g.radial := by
    rw [List.countP_eq_length.2 fun face hface => decide_eq_true (length_of_mem_topFan hface),
      topFan, List.length_map, List.length_range]
  rw [faces, List.countP_append, List.countP_append, hbottom, hstrips, htop]
  omega

/-! ## Corners -/

theorem next_ne (hg : g.IsRenderable) {i : Nat} (h : i < g.radial) : g.next i ≠ i := by
  have hradial : 3 ≤ g.radial := hg.1
  rcases next_cases h with ⟨hnext, -⟩ | ⟨-, hlast, hnext⟩ <;> omega

/-- **A face comes to no point twice.** -/
theorem nodup_face (hg : g.IsRenderable) {belt column : Nat} (hbelt : belt ≤ g.rings)
    (hcolumn : column < g.radial) : (g.face belt column).Nodup := by
  have hlength : g.radial ≤ g.ringLength := radial_le_ringLength
  have hnext := next_lt hcolumn
  have hne := next_ne hg hcolumn
  refine (nodup_sides belt).map_on fun side hside side' hside' h => ?_
  cases side <;> cases side'
  case bottom.bottom | right.right | top.top | left.left => rfl
  -- different sides that begin at one point begin on one rung, and there in two columns
  all_goals
    simp only [ends] at h
    obtain ⟨hrung, hcolumns⟩ := place_eq (by omega) (by omega) (by omega) (by omega) h
  case bottom.right => exact absurd (hcolumns (bottom_mem_sides.1 hside) hbelt).symm hne
  case right.bottom => exact absurd (hcolumns (bottom_mem_sides.1 hside') hbelt) hne
  case top.left =>
    exact absurd (hcolumns (Nat.succ_pos belt) ((top_mem_sides hg).1 hside)) hne
  case left.top =>
    exact absurd (hcolumns (Nat.succ_pos belt) ((top_mem_sides hg).1 hside')).symm hne
  all_goals omega

theorem nodup_of_mem_faces (hg : g.IsRenderable) {face : List Nat} (hface : face ∈ g.faces) :
    face.Nodup := by
  rw [faces_eq hg] at hface
  obtain ⟨belt, hbelt, hmem⟩ := List.mem_flatMap.1 hface
  obtain ⟨column, hcolumn, rfl⟩ := List.mem_map.1 hmem
  exact nodup_face hg (Nat.lt_succ_iff.1 (List.mem_range.1 hbelt)) (List.mem_range.1 hcolumn)

/-! ## Every point is a corner -/

/-- Every column of a ring is the first of a face or the one after. -/
theorem exists_column (hg : g.IsRenderable) {c : Nat} (hc : c < g.ringLength) :
    ∃ j < g.radial, c = j ∨ c = g.next j := by
  have hradial : 3 ≤ g.radial := hg.1
  by_cases hlt : c < g.radial
  · exact ⟨c, hlt, Or.inl rfl⟩
  · -- the last column of an open ring
    have hopen : g.closed = false := by
      by_contra hclosed
      rw [ringLength, if_pos (Bool.not_eq_false _ ▸ hclosed)] at hc
      exact hlt hc
    have hlength : g.ringLength = g.radial + 1 := by
      rw [ringLength, hopen]
      rfl
    refine ⟨g.radial - 1, by omega, Or.inr ?_⟩
    rw [next_of_open hopen]
    omega

/-- **Every number of a point is a place.** -/
theorem exists_place_eq (hg : g.IsRenderable) {i : Nat} (hi : i < g.pointCount) :
    ∃ r ≤ g.rings + 1, ∃ c < g.ringLength, g.place r c = i := by
  have hradial : 3 ≤ g.radial := hg.1
  have hpos : 0 < g.ringLength := Nat.lt_of_lt_of_le (by omega) radial_le_ringLength
  rw [pointCount_eq hg] at hi
  by_cases hbottom : i = 0
  · exact ⟨0, Nat.zero_le _, 0, hpos, hbottom.symm⟩
  by_cases htop : i = g.rings * g.ringLength + 1
  · refine ⟨g.rings + 1, Nat.le_refl _, 0, hpos, ?_⟩
    rw [place_top, topPole, vertex, htop]
    omega
  · -- between the poles, ring and column are quotient and remainder
    have hlt : i - 1 < g.rings * g.ringLength := by omega
    have hring : (i - 1) / g.ringLength < g.rings := Nat.div_lt_of_lt_mul (by rwa [Nat.mul_comm])
    refine ⟨(i - 1) / g.ringLength + 1, by omega, (i - 1) % g.ringLength, Nat.mod_lt _ hpos, ?_⟩
    have hsplit := Nat.div_add_mod' (i - 1) g.ringLength
    rw [place_ring hring, vertex]
    omega

/-- A side that a face has begins at a corner of it. -/
theorem start_mem_face {belt column : Nat} {side : Side} (h : side ∈ g.sides belt) :
    (g.ends ⟨belt, column, side⟩).1 ∈ g.face belt column :=
  List.mem_map_of_mem h

theorem face_mem_faces (hg : g.IsRenderable) {belt column : Nat} (hbelt : belt ≤ g.rings)
    (hcolumn : column < g.radial) : g.face belt column ∈ g.faces := by
  rw [faces_eq hg, List.mem_flatMap]
  exact ⟨belt, List.mem_range.2 (Nat.lt_succ_of_le hbelt),
    List.mem_map_of_mem (List.mem_range.2 hcolumn)⟩

/-- **Every point is a corner of a face.** -/
theorem exists_face_of_lt (hg : g.IsRenderable) {i : Nat} (hi : i < g.pointCount) :
    ∃ face ∈ g.faces, i ∈ face := by
  have hradial : 3 ≤ g.radial := hg.1
  obtain ⟨r, hr, c, hc, rfl⟩ := exists_place_eq hg hi
  obtain ⟨j, hj, hcolumn⟩ := exists_column hg hc
  by_cases hbottom : r = 0
  · subst hbottom
    exact ⟨_, face_mem_faces hg (Nat.zero_le _) hj, start_mem_face (right_mem_sides 0)⟩
  by_cases htop : r = g.rings + 1
  · subst htop
    have hpole : g.place (g.rings + 1) c = g.place (g.rings + 1) j := by
      rw [place_top, place_top]
    rw [hpole]
    exact ⟨_, face_mem_faces hg (Nat.le_refl _) hj, start_mem_face (left_mem_sides g.rings)⟩
  · refine ⟨_, face_mem_faces hg (show r ≤ g.rings by omega) hj, ?_⟩
    rcases hcolumn with rfl | rfl
    · exact start_mem_face (bottom_mem_sides.2 (by omega))
    · exact start_mem_face (right_mem_sides r)

end Grid

namespace MeshTopology

/-- **The buffers of some faces fit no smaller number of points** than the least that is above all
their corners, and the corner that is found not to fit is the greatest. -/
theorem validate_ofFaces_of_mem {faces : List (List Nat)} {last : Nat}
    (hlength : ∀ face ∈ faces, face.length < UInt32.size)
    (hindex : ∀ face ∈ faces, ∀ i ∈ face, i ≤ last) (hfit : last < UInt32.size)
    (hlast : ∃ face ∈ faces, last ∈ face) :
    (ofFaces faces).validate last = .error (.indexOutOfRange (UInt32.ofNat last) last) := by
  obtain ⟨face, hface, hmem⟩ := hlast
  have hword : UInt32.ofNat last ∈ (ofFaces faces).indices :=
    List.mem_map_of_mem (List.mem_flatten_of_mem hface hmem)
  cases hchecked : (ofFaces faces).validate last with
  | ok =>
    -- the last point itself does not fit
    have hlt := (validate_eq_ok_iff.1 hchecked).2 _ hword
    rw [UInt32.toNat_ofNat_of_lt' hfit] at hlt
    exact absurd hlt (Nat.lt_irrefl last)
  | error e =>
    rcases validate_eq_error_iff.1 hchecked with
      ⟨hne, -⟩ | ⟨-, front, index, back, hsplit, -, hpast, rfl⟩
    · exact absurd (counted_ofFaces hlength) hne
    · have hin : index ∈ (ofFaces faces).indices :=
        hsplit ▸ List.mem_append_right front List.mem_cons_self
      obtain ⟨i, hi, rfl⟩ := List.mem_map.1 hin
      obtain ⟨face, hface, hi⟩ := List.mem_flatten.1 hi
      have hle := hindex face hface i hi
      rw [UInt32.toNat_ofNat_of_lt' (by omega)] at hpast
      rw [Nat.le_antisymm hle hpast]

end MeshTopology

namespace Grid

/-- **The connectivity of a capsule leaves no point out.** It fits the number of points of its grid.
Below the least resolution there are neither faces nor points. From there on there is a triangle at
either pole for each column and a quad for each column and pair of neighbouring rings, no face comes
to a point twice, every point is on a face, and so with one point less the last one is missed. -/
theorem topology_covers (g : Grid) (hfit : g.pointCount ≤ UInt32.size) :
    g.topology.validate g.pointCount = .ok () ∧
    (¬ g.IsRenderable → g.topology.isEmpty ∧ g.topology.indices = [] ∧ g.pointCount = 0) ∧
    (g.IsRenderable → ∃ faces, g.topology.faces? = some faces ∧
      g.topology.faceCount = (2 * g.capAxial + 1) * g.radial ∧
      faces.length = (2 * g.capAxial + 1) * g.radial ∧
      faces.countP (·.length = 3) = 2 * g.radial ∧
      (∀ face ∈ faces, face.length = 3 ∨ face.length = 4) ∧
      (∀ face ∈ faces, face.Nodup) ∧
      (∀ i < g.pointCount, ∃ face ∈ faces, UInt32.ofNat i ∈ face) ∧
      g.topology.validate (g.pointCount - 1) =
        .error (.indexOutOfRange (UInt32.ofNat (g.pointCount - 1)) (g.pointCount - 1))) := by
  refine ⟨g.validate_topology, fun hsmall => ?_, fun hg => ?_⟩
  · rw [topology, if_neg hsmall, pointCount, if_neg hsmall]
    exact ⟨rfl, rfl, rfl⟩
  · have hlength : ∀ face ∈ g.faces, face.length < UInt32.size := fun face hface =>
      Nat.lt_of_le_of_lt (length_le_four_of_mem_faces hface) (by decide)
    have hlt : ∀ face ∈ g.faces, ∀ i ∈ face, i < g.pointCount := fun face hface i hi =>
      lt_pointCount_of_mem_faces hg hface hi
    have hpos : 0 < g.pointCount := Nat.lt_of_le_of_lt (Nat.zero_le _) (topPole_lt hg)
    have hcount : g.faces.length = (2 * g.capAxial + 1) * g.radial := length_faces hg
    have htopology : g.topology = MeshTopology.ofFaces g.faces := if_pos hg
    rw [htopology, MeshTopology.faces?_ofFaces hlength]
    refine ⟨_, rfl, ?_, ?_, ?_, ?_, ?_, fun i hi => ?_, ?_⟩
    · rw [MeshTopology.faceCount, MeshTopology.ofFaces, List.length_map, hcount]
    · rw [List.length_map, hcount]
    · rw [List.countP_map, ← countP_triangles]
      exact List.countP_congr fun face _ => by simp
    · intro face hface
      obtain ⟨numbers, hnumbers, rfl⟩ := List.mem_map.1 hface
      rw [List.length_map]
      exact length_of_mem_faces hnumbers
    · intro face hface
      obtain ⟨numbers, hnumbers, rfl⟩ := List.mem_map.1 hface
      refine (nodup_of_mem_faces hg hnumbers).map_on fun i hi j hj hij => ?_
      have hi' := Nat.lt_of_lt_of_le (hlt numbers hnumbers i hi) hfit
      have hj' := Nat.lt_of_lt_of_le (hlt numbers hnumbers j hj) hfit
      exact Face.ofNat_inj hi' hj' hij
    · obtain ⟨numbers, hnumbers, hmem⟩ := exists_face_of_lt hg hi
      exact ⟨_, List.mem_map_of_mem hnumbers, List.mem_map_of_mem hmem⟩
    · refine MeshTopology.validate_ofFaces_of_mem hlength ?_ (by omega) ?_
      · intro face hface i hi
        exact Nat.le_sub_one_of_lt (hlt face hface i hi)
      · exact exists_face_of_lt hg (by omega)

/-- The smallest closed grid has eight points and nine faces. -/
theorem topology_covers_smallest :
    (Grid.mk 3 1 true).pointCount ≤ UInt32.size ∧
    (Grid.mk 3 1 true).topology.validate 8 = .ok () ∧
    (Grid.mk 3 1 true).topology.faceCount = 9 ∧
    (Grid.mk 3 1 true).topology.validate 7 = .error (.indexOutOfRange 7 7) := by
  have hfit : (Grid.mk 3 1 true).pointCount ≤ UInt32.size := by decide
  obtain ⟨hvalid, -, hcovers⟩ := topology_covers ⟨3, 1, true⟩ hfit
  obtain ⟨faces, -, hcount, -, -, -, -, -, hshort⟩ := hcovers (by decide)
  exact ⟨hfit, hvalid, hcount, hshort⟩

end Grid

end CapsuleImaging
