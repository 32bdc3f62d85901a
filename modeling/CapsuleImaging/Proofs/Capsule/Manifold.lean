import CapsuleImaging.Proofs.Capsule.Layout
import CapsuleImaging.Proofs.Mesh.Edges
import Mathlib.Data.List.Nodup

/-!
# The surface of a capsule

The faces of a grid lie in **belts** between **rungs**: rung `0` is the bottom pole, then come the
rings, and the last rung is the top pole. A face has a column and a belt, and its directed edges are
its **sides**: the bottom one along the rung below, the right one up, the top one back along the
rung above, the left one down. A face at a pole has no side there.

Sides of different faces, or different sides of one, never have the same ends (`ends_inj`), so no
directed edge occurs twice. The top side of a face is the bottom side of the face above, turned
around, and the right side is the left side of the next face; so if the columns close, every edge
occurs both ways. If they do not, what is left over is the right side of the last column and the
left side of the first, all the way from pole to pole.
-/

namespace CapsuleImaging

namespace Grid

variable {g : Grid}

/-! ## Columns -/

/-- The next column is one further, but for the last of a closed grid, which is followed by the
first. -/
theorem next_cases {i : Nat} (h : i < g.radial) :
    g.next i = i + 1 ∧ (g.closed = true → i + 1 < g.radial) ∨
      g.closed = true ∧ i + 1 = g.radial ∧ g.next i = 0 := by
  unfold next
  by_cases hclosed : g.closed = true
  · rw [if_pos hclosed]
    by_cases hlast : i + 1 = g.radial
    · exact Or.inr ⟨hclosed, hlast, by rw [hlast, Nat.mod_self]⟩
    · have hlt : i + 1 < g.radial := by omega
      exact Or.inl ⟨Nat.mod_eq_of_lt hlt, fun _ => hlt⟩
  · rw [if_neg hclosed]
    exact Or.inl ⟨rfl, fun h => absurd h hclosed⟩

theorem next_inj {i j : Nat} (hi : i < g.radial) (hj : j < g.radial) (h : g.next i = g.next j) :
    i = j := by
  rcases next_cases hi with ⟨hi', -⟩ | ⟨-, hi', hi''⟩ <;>
    rcases next_cases hj with ⟨hj', -⟩ | ⟨-, hj', hj''⟩ <;> omega

/-- Two columns on is another column: there are at least three. -/
theorem next_next_ne (hg : g.IsRenderable) {i j : Nat} (hi : i < g.radial) (hj : j < g.radial)
    (hij : g.next i = j) : g.next j ≠ i := by
  have hradial : 3 ≤ g.radial := hg.1
  rcases next_cases hi with ⟨hi', -⟩ | ⟨-, hi', hi''⟩ <;>
    rcases next_cases hj with ⟨hj', -⟩ | ⟨-, hj', hj''⟩ <;> omega

theorem next_lt_radial (hclosed : g.closed = true) {i : Nat} (h : i < g.radial) :
    g.next i < g.radial := by
  rcases next_cases h with ⟨hnext, hlt⟩ | ⟨-, -, hnext⟩
  · rw [hnext]
    exact hlt hclosed
  · omega

/-- Around a closed grid every column follows one. -/
theorem exists_next_eq (hclosed : g.closed = true) {i : Nat} (h : i < g.radial) :
    ∃ j < g.radial, g.next j = i := by
  by_cases hi : i = 0
  · refine ⟨g.radial - 1, by omega, ?_⟩
    rcases next_cases (g := g) (i := g.radial - 1) (by omega) with ⟨-, hlt⟩ | ⟨-, -, hnext⟩
    · have := hlt hclosed
      omega
    · omega
  · refine ⟨i - 1, by omega, ?_⟩
    rcases next_cases (g := g) (i := i - 1) (by omega) with ⟨hnext, -⟩ | ⟨-, hlast, -⟩ <;> omega

/-! ## Rungs -/

/-- The point at a rung in a column. A pole is one point, whatever the column. -/
def place (g : Grid) (rung column : Nat) : Nat :=
  if rung = 0 then bottomPole
  else if rung ≤ g.rings then g.vertex (rung - 1) column
  else g.topPole

theorem place_zero (column : Nat) : g.place 0 column = bottomPole := rfl

theorem place_ring {ring : Nat} (h : ring < g.rings) (column : Nat) :
    g.place (ring + 1) column = g.vertex ring column := by
  rw [place, if_neg (Nat.succ_ne_zero ring), if_pos (Nat.succ_le_of_lt h), Nat.add_sub_cancel]

theorem place_top (column : Nat) : g.place (g.rings + 1) column = g.topPole := by
  rw [place, if_neg (Nat.succ_ne_zero _), if_neg (by omega)]

/-- Points on a higher rung have higher numbers. -/
theorem place_lt_place {r r' c : Nat} (hr : r < r') (hr' : r' ≤ g.rings + 1)
    (hc : c < g.ringLength) (c' : Nat) : g.place r c < g.place r' c' := by
  obtain ⟨k, rfl⟩ : ∃ k, r' = k + 1 := ⟨r' - 1, by omega⟩
  -- the numbers of the ring `k` begin after those of the `k` rings below it
  have hupper : 1 + k * g.ringLength ≤ g.place (k + 1) c' := by
    by_cases hk : k < g.rings
    · rw [place_ring hk, vertex]
      omega
    · obtain rfl : k = g.rings := by omega
      rw [place_top, topPole, vertex]
      omega
  by_cases hzero : r = 0
  · rw [hzero, place_zero, bottomPole]
    omega
  · obtain ⟨j, rfl⟩ : ∃ j, r = j + 1 := ⟨r - 1, by omega⟩
    rw [place_ring (by omega), vertex]
    have hrow : (j + 1) * g.ringLength ≤ k * g.ringLength := Nat.mul_le_mul_right _ (by omega)
    rw [Nat.add_mul, Nat.one_mul] at hrow
    omega

/-- A point is on one rung. -/
theorem rung_inj {r r' c c' : Nat} (hr : r ≤ g.rings + 1) (hr' : r' ≤ g.rings + 1)
    (hc : c < g.ringLength) (hc' : c' < g.ringLength) (h : g.place r c = g.place r' c') :
    r = r' := by
  rcases Nat.lt_trichotomy r r' with hlt | heq | hlt
  · have := place_lt_place hlt hr' hc c'
    omega
  · exact heq
  · have := place_lt_place hlt hr hc' c
    omega

/-- A point of a ring is in one column. -/
theorem column_inj {r c c' : Nat} (hr : 0 < r) (hr' : r ≤ g.rings)
    (h : g.place r c = g.place r c') : c = c' := by
  obtain ⟨k, rfl⟩ : ∃ k, r = k + 1 := ⟨r - 1, by omega⟩
  rw [place_ring (by omega), place_ring (by omega), vertex, vertex] at h
  omega

/-! ## Sides of faces -/

/-- The sides of a face, in the order in which it goes around. -/
inductive Side where
  | bottom
  | right
  | top
  | left
deriving DecidableEq, Repr

/-- One side of the face in a belt and a column. -/
structure HalfEdge where
  belt : Nat
  column : Nat
  side : Side
deriving DecidableEq, Repr

/-- The sides that the faces of a belt have: at a pole there is none. -/
def sides (g : Grid) (belt : Nat) : List Side :=
  if belt = 0 then [.right, .top, .left]
  else if belt < g.rings then [.bottom, .right, .top, .left]
  else [.bottom, .right, .left]

/-- From where to where a side goes. -/
def ends (g : Grid) : HalfEdge → Nat × Nat
  | ⟨belt, column, .bottom⟩ => (g.place belt column, g.place belt (g.next column))
  | ⟨belt, column, .right⟩ => (g.place belt (g.next column), g.place (belt + 1) (g.next column))
  | ⟨belt, column, .top⟩ => (g.place (belt + 1) (g.next column), g.place (belt + 1) column)
  | ⟨belt, column, .left⟩ => (g.place (belt + 1) column, g.place belt column)

/-- The sides of all faces, in the order of the faces. -/
def halfEdges (g : Grid) : List HalfEdge :=
  (List.range (g.rings + 1)).flatMap fun belt =>
    (List.range g.radial).flatMap fun column => (g.sides belt).map (HalfEdge.mk belt column)

/-- The face in a belt and a column: where each of its sides begins. -/
def face (g : Grid) (belt column : Nat) : List Nat :=
  (g.sides belt).map fun side => (g.ends ⟨belt, column, side⟩).1

theorem sides_zero : g.sides 0 = [.right, .top, .left] := rfl

theorem sides_inner {belt : Nat} (hpos : 0 < belt) (hlt : belt < g.rings) :
    g.sides belt = [.bottom, .right, .top, .left] := by
  rw [sides, if_neg (by omega), if_pos hlt]

theorem sides_last (hg : g.IsRenderable) : g.sides g.rings = [.bottom, .right, .left] := by
  have hrings := two_le_rings hg
  rw [sides, if_neg (by omega), if_neg (by omega)]

theorem bottom_mem_sides {belt : Nat} : Side.bottom ∈ g.sides belt ↔ 0 < belt := by
  unfold sides
  split
  · next h => simp [h]
  · next h => split <;> simp [Nat.pos_of_ne_zero h]

theorem top_mem_sides (hg : g.IsRenderable) {belt : Nat} :
    Side.top ∈ g.sides belt ↔ belt < g.rings := by
  have hrings := two_le_rings hg
  unfold sides
  split
  · next h =>
    simp only [List.mem_cons, reduceCtorEq, true_or, or_true, true_iff]
    omega
  · split
    · next h => simp [h]
    · next h => simp [h]

theorem right_mem_sides (belt : Nat) : Side.right ∈ g.sides belt := by
  unfold sides
  split
  · simp
  · split <;> simp

theorem left_mem_sides (belt : Nat) : Side.left ∈ g.sides belt := by
  unfold sides
  split
  · simp
  · split <;> simp

theorem nodup_sides (belt : Nat) : (g.sides belt).Nodup := by
  unfold sides
  split
  · decide
  · split <;> decide

theorem mem_halfEdges {e : HalfEdge} : e ∈ g.halfEdges ↔
    e.belt ≤ g.rings ∧ e.column < g.radial ∧ e.side ∈ g.sides e.belt := by
  simp only [halfEdges, List.mem_flatMap, List.mem_range, List.mem_map]
  constructor
  · rintro ⟨belt, hbelt, column, hcolumn, side, hside, rfl⟩
    exact ⟨Nat.lt_succ_iff.1 hbelt, hcolumn, hside⟩
  · rintro ⟨hbelt, hcolumn, hside⟩
    exact ⟨e.belt, Nat.lt_succ_iff.2 hbelt, e.column, hcolumn, e.side, hside, rfl⟩

/-- Every side is listed once: the belts are apart, and in a belt the columns. -/
theorem nodup_halfEdges (g : Grid) : g.halfEdges.Nodup := by
  refine List.nodup_flatMap.2 ⟨fun belt _ => List.nodup_flatMap.2 ⟨fun column _ => ?_, ?_⟩, ?_⟩
  · refine (nodup_sides belt).map fun side side' h => ?_
    cases h
    rfl
  · refine List.nodup_range.imp fun hne e he he' => hne ?_
    obtain ⟨side, -, rfl⟩ := List.mem_map.1 he
    obtain ⟨side', -, heq⟩ := List.mem_map.1 he'
    exact (congrArg HalfEdge.column heq).symm
  · refine List.nodup_range.imp fun hne e he he' => hne ?_
    obtain ⟨column, -, hmem⟩ := List.mem_flatMap.1 he
    obtain ⟨side, -, rfl⟩ := List.mem_map.1 hmem
    obtain ⟨column', -, hmem'⟩ := List.mem_flatMap.1 he'
    obtain ⟨side', -, heq⟩ := List.mem_map.1 hmem'
    exact (congrArg HalfEdge.belt heq).symm

/-- **A face's directed edges are its sides.** -/
theorem loop_face (hg : g.IsRenderable) {belt : Nat} (hbelt : belt ≤ g.rings) (column : Nat) :
    Face.loop (g.face belt column) =
      (g.sides belt).map fun side => g.ends ⟨belt, column, side⟩ := by
  have hrings := two_le_rings hg
  unfold face
  by_cases hzero : belt = 0
  · subst hzero
    rw [sides_zero]
    rfl
  · by_cases hinner : belt < g.rings
    · rw [sides_inner (by omega) hinner]
      rfl
    · obtain rfl : belt = g.rings := by omega
      rw [sides_last hg]
      simp only [List.map_cons, List.map_nil, ends, place_top]
      rfl

/-- **The faces of a grid, belt by belt.** -/
theorem faces_eq (hg : g.IsRenderable) :
    g.faces = (List.range (g.rings + 1)).flatMap fun belt =>
      (List.range g.radial).map (g.face belt) := by
  have hrings := two_le_rings hg
  have hbottom : g.bottomFan = (List.range g.radial).map (g.face 0) := by
    refine List.map_congr_left fun i _ => ?_
    simp only [face, sides_zero, List.map_cons, List.map_nil, ends, place_zero,
      place_ring (show 0 < g.rings by omega)]
  have hstrip : ∀ k ∈ List.range (g.rings - 1),
      g.strip k = (List.range g.radial).map (g.face (k + 1)) := by
    intro k hk
    have hlt : k + 1 < g.rings := by
      have := List.mem_range.1 hk
      omega
    refine List.map_congr_left fun i _ => ?_
    simp only [face, sides_inner (Nat.succ_pos k) hlt, List.map_cons, List.map_nil, ends,
      place_ring hlt, place_ring (Nat.lt_of_succ_lt hlt)]
  have htop : g.topFan = (List.range g.radial).map (g.face g.rings) := by
    have hplace : ∀ column, g.place g.rings column = g.vertex (g.rings - 1) column := by
      intro column
      rw [← place_ring (by omega), Nat.sub_add_cancel (by omega)]
    refine List.map_congr_left fun i _ => ?_
    simp only [face, sides_last hg, List.map_cons, List.map_nil, ends, place_top, hplace]
  have hrange : List.range (g.rings + 1) =
      0 :: (List.range (g.rings - 1)).map Nat.succ ++ [g.rings] := by
    have hsucc : g.rings = g.rings - 1 + 1 := by omega
    rw [List.range_succ]
    conv_lhs => rw [hsucc, List.range_succ_eq_map]
    rw [← hsucc]
  rw [faces, hbottom, htop, hrange, List.flatMap_append, List.flatMap_cons, List.flatMap_map,
    List.flatMap_singleton]
  congr 2
  exact List.flatMap_congr hstrip

theorem length_faces (hg : g.IsRenderable) : g.faces.length = (g.rings + 1) * g.radial := by
  rw [faces_eq hg]
  simp only [List.length_flatMap, List.length_map, List.length_range, List.map_const',
    List.sum_replicate_nat]

/-- **The edges of a grid, counted**: in each column those of a triangle at either pole and of the
quads between. -/
theorem length_directedEdges_faces (hg : g.IsRenderable) :
    (Face.directedEdges g.faces).length = (8 * g.capAxial + 2) * g.radial := by
  have hbottom : (Face.directedEdges g.bottomFan).length = g.radial * 3 := by
    rw [Face.length_directedEdges fun face => length_of_mem_bottomFan, bottomFan, List.length_map,
      List.length_range]
  have hstrips : (Face.directedEdges ((List.range (g.rings - 1)).flatMap g.strip)).length =
      (g.rings - 1) * g.radial * 4 := by
    rw [Face.length_directedEdges fun face => length_of_mem_strips]
    simp [strip, List.length_flatMap]
  have htop : (Face.directedEdges g.topFan).length = g.radial * 3 := by
    rw [Face.length_directedEdges fun face => length_of_mem_topFan, topFan, List.length_map,
      List.length_range]
  have hrows : g.rings - 1 + 1 = 2 * g.capAxial :=
    Nat.sub_add_cancel (Nat.le_of_succ_le (two_le_rings hg))
  rw [faces, Face.directedEdges_append, Face.directedEdges_append, List.length_append,
    List.length_append, hbottom, hstrips, htop]
  grind

/-- **The directed edges of a grid are the sides of its faces.** -/
theorem directedEdges_faces (hg : g.IsRenderable) :
    Face.directedEdges g.faces = g.halfEdges.map g.ends := by
  rw [faces_eq hg, Face.directedEdges, halfEdges, List.map_flatMap, List.flatMap_assoc]
  refine List.flatMap_congr fun belt hbelt => ?_
  have hbelt' : belt ≤ g.rings := Nat.lt_succ_iff.1 (List.mem_range.1 hbelt)
  rw [List.flatMap_map, List.map_flatMap]
  refine List.flatMap_congr fun column _ => ?_
  rw [loop_face hg hbelt', List.map_map]
  rfl

/-! ## No two sides have the same ends -/

/-- Two points are one exactly if they are on one rung and, between the poles, in one column. -/
theorem place_eq {r r' c c' : Nat} (hr : r ≤ g.rings + 1) (hr' : r' ≤ g.rings + 1)
    (hc : c < g.ringLength) (hc' : c' < g.ringLength) (h : g.place r c = g.place r' c') :
    r = r' ∧ (0 < r → r ≤ g.rings → c = c') := by
  obtain rfl := rung_inj hr hr' hc hc' h
  exact ⟨rfl, fun hpos hle => column_inj hpos hle h⟩

/-- **A side is determined by its ends.** -/
theorem ends_inj (hg : g.IsRenderable) {e e' : HalfEdge} (he : e ∈ g.halfEdges)
    (he' : e' ∈ g.halfEdges) (h : g.ends e = g.ends e') : e = e' := by
  have hrings := two_le_rings hg
  have hlength : g.radial ≤ g.ringLength := radial_le_ringLength
  obtain ⟨b, i, side⟩ := e
  obtain ⟨b', i', side'⟩ := e'
  obtain ⟨hb, hi, hside⟩ := mem_halfEdges.1 he
  obtain ⟨hb', hi', hside'⟩ := mem_halfEdges.1 he'
  dsimp only at hb hi hside hb' hi' hside'
  have hnext := next_lt hi
  have hnext' := next_lt hi'
  have hinj := next_inj hi hi'
  cases side <;> cases side' <;>
    simp only [ends, Prod.mk.injEq] at h <;>
    obtain ⟨hfrom, hto⟩ := h <;>
    obtain ⟨hrung, hcolumn⟩ := place_eq (by omega) (by omega) (by omega) (by omega) hfrom <;>
    obtain ⟨hrung', hcolumn'⟩ := place_eq (by omega) (by omega) (by omega) (by omega) hto
  case bottom.bottom =>
    subst hrung
    rw [hcolumn (bottom_mem_sides.1 hside) hb]
  case right.right =>
    subst hrung
    -- of its two points one is not a pole, and tells the column
    have heq : g.next i = g.next i' := by
      by_cases hzero : b = 0
      · exact hcolumn' (by omega) (by omega)
      · exact hcolumn (by omega) (by omega)
    rw [hinj heq]
  case top.top =>
    obtain rfl : b = b' := by omega
    rw [hcolumn' (by omega) ((top_mem_sides hg).1 hside)]
  case left.left =>
    obtain rfl : b = b' := by omega
    by_cases hzero : b = 0
    · rw [hcolumn (by omega) (by omega)]
    · rw [hcolumn' (by omega) (by omega)]
  -- the one along a rung, the other back along it: they would go around two columns
  case bottom.top =>
    have hpos := bottom_mem_sides.1 hside
    exact absurd (hcolumn hpos hb).symm (next_next_ne hg hi hi' (hcolumn' hpos hb))
  case top.bottom =>
    have hpos := bottom_mem_sides.1 hside'
    exact absurd (hcolumn' (by omega) (by omega)).symm
      (next_next_ne hg hi hi' (hcolumn (by omega) (by omega)))
  all_goals omega

/-- **No directed edge occurs twice.** -/
theorem nodup_directedEdges (hg : g.IsRenderable) : (Face.directedEdges g.faces).Nodup := by
  rw [directedEdges_faces hg]
  exact g.nodup_halfEdges.map_on fun e he e' he' h => ends_inj hg he he' h

/-! ## Sides that meet -/

/-- The bottom side of a face is the top side of the face below, turned around. -/
theorem swap_ends_bottom {belt column : Nat} :
    (g.ends ⟨belt + 1, column, .bottom⟩).swap = g.ends ⟨belt, column, .top⟩ := rfl

/-- The right side of a face is the left side of the next, turned around. -/
theorem swap_ends_right {belt column : Nat} :
    (g.ends ⟨belt, column, .right⟩).swap = g.ends ⟨belt, g.next column, .left⟩ := rfl

/-- Whether a side lies where the surface is open: right of the last column, or left of the
first. -/
def HalfEdge.OnSeam (radial : Nat) (e : HalfEdge) : Prop :=
  e.side = .right ∧ e.column + 1 = radial ∨ e.side = .left ∧ e.column = 0

/-- **Every other side meets one**, and so does every side of a closed grid. -/
theorem exists_swap_ends (hg : g.IsRenderable) {e : HalfEdge} (he : e ∈ g.halfEdges)
    (hseam : g.closed = true ∨ ¬ e.OnSeam g.radial) :
    ∃ e' ∈ g.halfEdges, g.ends e' = (g.ends e).swap := by
  obtain ⟨b, i, side⟩ := e
  obtain ⟨hb, hi, hside⟩ := mem_halfEdges.1 he
  dsimp only at hb hi hside
  cases side with
  | bottom =>
    obtain ⟨k, rfl⟩ : ∃ k, b = k + 1 := ⟨b - 1, by have := bottom_mem_sides.1 hside; omega⟩
    refine ⟨⟨k, i, .top⟩, mem_halfEdges.2 ⟨Nat.le_of_succ_le hb, hi, ?_⟩, swap_ends_bottom.symm⟩
    exact (top_mem_sides hg).2 hb
  | top =>
    have hlt := (top_mem_sides hg).1 hside
    refine ⟨⟨b + 1, i, .bottom⟩, mem_halfEdges.2 ⟨hlt, hi, ?_⟩, rfl⟩
    exact bottom_mem_sides.2 (Nat.succ_pos b)
  | right =>
    have hnext : g.next i < g.radial := by
      rcases hseam with hclosed | hseam
      · exact next_lt_radial hclosed hi
      · have hlast : i + 1 ≠ g.radial := fun h => hseam (Or.inl ⟨rfl, h⟩)
        rcases next_cases hi with ⟨hnext, -⟩ | ⟨-, -, hnext⟩ <;> omega
    have hmem : ⟨b, g.next i, .left⟩ ∈ g.halfEdges :=
      mem_halfEdges.2 ⟨hb, hnext, left_mem_sides b⟩
    exact ⟨⟨b, g.next i, .left⟩, hmem, swap_ends_right.symm⟩
  | left =>
    obtain ⟨j, hj, hnext⟩ : ∃ j < g.radial, g.next j = i := by
      by_cases hclosed : g.closed = true
      · exact exists_next_eq hclosed hi
      · have hfirst : i ≠ 0 := fun h => (hseam.resolve_left hclosed) (Or.inr ⟨rfl, h⟩)
        refine ⟨i - 1, by omega, ?_⟩
        rcases next_cases (g := g) (i := i - 1) (by omega) with ⟨hnext, -⟩ | ⟨h, -, -⟩
        · omega
        · exact absurd h hclosed
    subst hnext
    exact ⟨⟨b, j, .right⟩, mem_halfEdges.2 ⟨hb, hj, right_mem_sides b⟩, rfl⟩

/-- In an open grid a column is followed by the next number. -/
theorem next_of_open (hopen : g.closed = false) (i : Nat) : g.next i = i + 1 := by
  rw [next, hopen]
  rfl

/-- **In an open grid no side meets one on the seam.** -/
theorem swap_ends_ne_of_onSeam (hg : g.IsRenderable) (hopen : g.closed = false) {e e' : HalfEdge}
    (he : e ∈ g.halfEdges) (he' : e' ∈ g.halfEdges) (hseam : e.OnSeam g.radial) :
    g.ends e' ≠ (g.ends e).swap := by
  have hrings := two_le_rings hg
  have hlength : g.radial ≤ g.ringLength := radial_le_ringLength
  obtain ⟨b, i, side⟩ := e
  obtain ⟨b', i', side'⟩ := e'
  obtain ⟨hb, hi, -⟩ := mem_halfEdges.1 he
  obtain ⟨hb', hi', -⟩ := mem_halfEdges.1 he'
  dsimp only at hb hi hb' hi'
  have hnext := next_lt hi
  have hnext' := next_lt hi'
  rw [next_of_open hopen] at hnext hnext'
  dsimp only [HalfEdge.OnSeam] at hseam
  intro h
  -- a side that meets one going up goes down, and the other way round
  rcases hseam with ⟨rfl, hlast⟩ | ⟨rfl, hfirst⟩ <;> cases side' <;>
    simp only [ends, Prod.swap_prod_mk, Prod.mk.injEq, next_of_open hopen] at h <;>
    obtain ⟨hfrom, hto⟩ := h <;>
    obtain ⟨hrung, hcolumn⟩ := place_eq (by omega) (by omega) (by omega) (by omega) hfrom <;>
    obtain ⟨hrung', hcolumn'⟩ := place_eq (by omega) (by omega) (by omega) (by omega) hto
  all_goals omega

/-! ## The seam -/

/-- **Where an open grid ends**: from the bottom pole up the last column to the top pole, and down
the first. -/
def seam (g : Grid) : List Nat :=
  bottomPole :: (List.range g.rings).map (g.vertex · g.radial) ++
    g.topPole :: ((List.range g.rings).map (g.vertex · 0)).reverse

/-- A column from pole to pole, rung by rung. -/
theorem map_place_range (column : Nat) :
    (List.range (g.rings + 1 + 1)).map (g.place · column) =
      bottomPole :: (List.range g.rings).map (g.vertex · column) ++ [g.topPole] := by
  have hrings : (List.range g.rings).map ((g.place · column) ∘ Nat.succ) =
      (List.range g.rings).map (g.vertex · column) :=
    List.map_congr_left fun k hk => place_ring (List.mem_range.1 hk) column
  rw [List.range_succ, List.map_append, List.map_singleton, place_top, List.range_succ_eq_map,
    List.map_cons, List.map_map, hrings, place_zero]

/-- **The edges of the seam**: up the last column, and down the first. -/
theorem mem_loop_seam {edge : Nat × Nat} : edge ∈ Face.loop g.seam ↔
    ∃ belt ≤ g.rings, edge = (g.place belt g.radial, g.place (belt + 1) g.radial) ∨
      edge = (g.place (belt + 1) 0, g.place belt 0) := by
  have hsplit : g.seam ++ g.seam.take 1 =
      (bottomPole :: (List.range g.rings).map (g.vertex · g.radial)) ++
        g.topPole :: ((List.range g.rings).map (g.vertex · 0)).reverse ++ [bottomPole] := rfl
  have hdown : g.topPole :: (((List.range g.rings).map (g.vertex · 0)).reverse ++ [bottomPole]) =
      ((List.range (g.rings + 1 + 1)).map (g.place · 0)).reverse := by
    rw [map_place_range, List.reverse_append, List.reverse_singleton, List.singleton_append,
      List.reverse_cons]
  rw [Face.loop, hsplit, List.append_assoc, List.cons_append (a := g.topPole), Face.chain_append,
    ← map_place_range, hdown, Face.chain_reverse, Face.chain_map_range, Face.chain_map_range]
  simp only [List.mem_append, List.mem_map, List.mem_reverse, List.mem_range,
    exists_exists_and_eq_and, Prod.swap_prod_mk]
  constructor
  · rintro (⟨belt, hbelt, rfl⟩ | ⟨belt, hbelt, rfl⟩)
    · exact ⟨belt, Nat.lt_succ_iff.1 hbelt, Or.inl rfl⟩
    · exact ⟨belt, Nat.lt_succ_iff.1 hbelt, Or.inr rfl⟩
  · rintro ⟨belt, hbelt, rfl | rfl⟩
    · exact Or.inl ⟨belt, Nat.lt_succ_iff.2 hbelt, rfl⟩
    · exact Or.inr ⟨belt, Nat.lt_succ_iff.2 hbelt, rfl⟩

/-- **The seam is a single loop**: it comes to no point twice. -/
theorem nodup_seam (hg : g.IsRenderable) (hopen : g.closed = false) : g.seam.Nodup := by
  have hradial : 3 ≤ g.radial := hg.1
  have hlength : g.ringLength = g.radial + 1 := by
    rw [ringLength, hopen]
    rfl
  have hcolumn : ∀ c < g.ringLength,
      (bottomPole :: (List.range g.rings).map (g.vertex · c) ++ [g.topPole]).Nodup := by
    intro c hc
    rw [← map_place_range]
    refine List.nodup_range.map_on fun r hr r' hr' h => ?_
    have hle : r ≤ g.rings + 1 := Nat.lt_succ_iff.1 (List.mem_range.1 hr)
    have hle' : r' ≤ g.rings + 1 := Nat.lt_succ_iff.1 (List.mem_range.1 hr')
    exact rung_inj hle hle' hc hc h
  have hup := hcolumn g.radial (by omega)
  have hdown := hcolumn 0 (by omega)
  rw [List.cons_append, List.nodup_cons] at hdown
  refine List.nodup_append.2 ⟨(List.nodup_append.1 hup).1, ?_, ?_⟩
  · rw [← List.reverse_concat', List.nodup_reverse]
    exact hdown.2
  · intro a ha b hb heq
    rw [List.mem_cons, List.mem_map] at ha
    rw [List.mem_cons, List.mem_reverse, List.mem_map] at hb
    rcases ha with rfl | ⟨j, hj, rfl⟩ <;> rcases hb with rfl | ⟨k, hk, rfl⟩
    · unfold bottomPole topPole vertex at heq
      omega
    · unfold bottomPole vertex at heq
      omega
    · have := vertex_lt_topPole (List.mem_range.1 hj) (show g.radial < g.ringLength by omega)
      omega
    · have hj' := List.mem_range.1 hj
      have hk' := List.mem_range.1 hk
      rw [← place_ring hj', ← place_ring hk'] at heq
      obtain ⟨-, hcolumns⟩ := place_eq (by omega) (by omega) (by omega) (by omega) heq
      -- the first column is not the last
      have := hcolumns (Nat.succ_pos j) hj'
      omega

/-- The edges of the seam are the sides on it. -/
theorem mem_loop_seam_iff (hg : g.IsRenderable) (hopen : g.closed = false) {edge : Nat × Nat} :
    edge ∈ Face.loop g.seam ↔ ∃ e ∈ g.halfEdges, e.OnSeam g.radial ∧ g.ends e = edge := by
  have hradial : 3 ≤ g.radial := hg.1
  have hlast : g.radial - 1 + 1 = g.radial := by omega
  have hcolumn : g.radial - 1 < g.radial := by omega
  rw [mem_loop_seam]
  constructor
  · rintro ⟨belt, hbelt, rfl | rfl⟩
    · refine ⟨⟨belt, g.radial - 1, .right⟩, ?_, Or.inl ⟨rfl, hlast⟩, ?_⟩
      · exact mem_halfEdges.2 ⟨hbelt, hcolumn, right_mem_sides belt⟩
      · rw [ends, next_of_open hopen, hlast]
    · refine ⟨⟨belt, 0, .left⟩, ?_, Or.inr ⟨rfl, rfl⟩, rfl⟩
      exact mem_halfEdges.2 ⟨hbelt, Nat.zero_lt_of_lt hradial, left_mem_sides belt⟩
  · rintro ⟨⟨belt, i, side⟩, he, hseam, rfl⟩
    obtain ⟨hbelt, hi, -⟩ := mem_halfEdges.1 he
    dsimp only [HalfEdge.OnSeam] at hseam
    rcases hseam with ⟨rfl, hi'⟩ | ⟨rfl, rfl⟩
    · refine ⟨belt, hbelt, Or.inl ?_⟩
      rw [ends, next_of_open hopen, hi']
    · exact ⟨belt, hbelt, Or.inr rfl⟩

/-! ## The surface -/

/-- **A closed grid is watertight**: every directed edge occurs both ways. -/
theorem swap_mem_directedEdges (hg : g.IsRenderable) (hclosed : g.closed = true) {edge : Nat × Nat}
    (h : edge ∈ Face.directedEdges g.faces) : edge.swap ∈ Face.directedEdges g.faces := by
  rw [directedEdges_faces hg] at h ⊢
  obtain ⟨e, he, rfl⟩ := List.mem_map.1 h
  obtain ⟨e', he', hswap⟩ := exists_swap_ends hg he (Or.inl hclosed)
  exact List.mem_map.2 ⟨e', he', hswap⟩

/-- **An open grid ends at its seam**: the edges that occur one way only are those of the seam. -/
theorem swap_notMem_directedEdges_iff (hg : g.IsRenderable) (hopen : g.closed = false)
    {edge : Nat × Nat} :
    edge ∈ Face.directedEdges g.faces ∧ edge.swap ∉ Face.directedEdges g.faces ↔
      edge ∈ Face.loop g.seam := by
  rw [directedEdges_faces hg, mem_loop_seam_iff hg hopen]
  constructor
  · rintro ⟨h, hswap⟩
    obtain ⟨e, he, rfl⟩ := List.mem_map.1 h
    refine ⟨e, he, ?_, rfl⟩
    -- off the seam it would occur turned around
    by_contra hseam
    obtain ⟨e', he', heq⟩ := exists_swap_ends hg he (Or.inr hseam)
    exact hswap (List.mem_map.2 ⟨e', he', heq⟩)
  · rintro ⟨e, he, hseam, rfl⟩
    refine ⟨List.mem_map_of_mem he, fun h => ?_⟩
    obtain ⟨e', he', heq⟩ := List.mem_map.1 h
    exact swap_ends_ne_of_onSeam hg hopen he he' hseam heq

/-- The numbers on an edge fit words, if the number of points does. -/
theorem lt_size_of_mem_directedEdges (hg : g.IsRenderable) (hfit : g.pointCount ≤ UInt32.size)
    {edge : Nat × Nat} (h : edge ∈ Face.directedEdges g.faces) :
    edge.1 < UInt32.size ∧ edge.2 < UInt32.size := by
  obtain ⟨face, hface, hfrom, hto⟩ := Face.exists_face_of_mem_directedEdges h
  exact ⟨Nat.lt_of_lt_of_le (lt_pointCount_of_mem_faces hg hface hfrom) hfit,
    Nat.lt_of_lt_of_le (lt_pointCount_of_mem_faces hg hface hto) hfit⟩

/-- As words an edge occurs turned around exactly if it does so as numbers. -/
theorem swap_toWords_mem_iff (hg : g.IsRenderable) (hfit : g.pointCount ≤ UInt32.size)
    {edge : Nat × Nat} (h : edge ∈ Face.directedEdges g.faces) :
    (Face.toWords edge).swap ∈ (Face.directedEdges g.faces).map Face.toWords ↔
      edge.swap ∈ Face.directedEdges g.faces := by
  have hedge := lt_size_of_mem_directedEdges hg hfit h
  constructor
  · intro hswap
    obtain ⟨other, hother, heq⟩ := List.mem_map.1 hswap
    have hfits := lt_size_of_mem_directedEdges hg hfit hother
    have hturned : other = edge.swap := Face.toWords_inj hfits ⟨hedge.2, hedge.1⟩ heq
    exact hturned ▸ hother
  · intro hswap
    exact List.mem_map.2 ⟨edge.swap, hswap, rfl⟩

/-- **The surface of a capsule.** A connectivity has a face in each column of each belt, and its
faces never go along a directed edge twice. If the grid closes they go along each edge both ways; if
not, the edges they go along one way only are those of the seam. -/
theorem topology_manifold (hg : g.IsRenderable) (hfit : g.pointCount ≤ UInt32.size) :
    ∃ faces, g.topology.faces? = some faces ∧
      faces.length = (2 * g.capAxial + 1) * g.radial ∧
      (Face.directedEdges faces).length = (8 * g.capAxial + 2) * g.radial ∧
      (g.closed = true → ∀ a b, (a, b) ∈ Face.directedEdges faces →
        (Face.directedEdges faces).count (a, b) = 1 ∧
          (Face.directedEdges faces).count (b, a) = 1) ∧
      (g.closed = false →
        (∀ a b, (Face.directedEdges faces).count (a, b) ≤ 1) ∧ g.seam.Nodup ∧
          ∀ a b, (a, b) ∈ Face.directedEdges faces ∧ (b, a) ∉ Face.directedEdges faces ↔
            (a, b) ∈ Face.loop (g.seam.map UInt32.ofNat)) := by
  have hlength : ∀ face ∈ g.faces, face.length < UInt32.size := fun face hface =>
    Nat.lt_of_le_of_lt (length_le_four_of_mem_faces hface) (by decide)
  refine ⟨_, by rw [topology, if_pos hg, MeshTopology.faces?_ofFaces hlength], ?_⟩
  rw [Face.directedEdges_toWords, Face.loop_toWords, List.length_map, List.length_map]
  have hnodup : ((Face.directedEdges g.faces).map Face.toWords).Nodup :=
    (nodup_directedEdges hg).map_on fun edge h edge' h' =>
      Face.toWords_inj (lt_size_of_mem_directedEdges hg hfit h)
        (lt_size_of_mem_directedEdges hg hfit h')
  refine ⟨length_faces hg, length_directedEdges_faces hg, fun hclosed a b hab => ?_,
    fun hopen => ⟨fun a b => ?_, nodup_seam hg hopen, fun a b => ?_⟩⟩
  · obtain ⟨edge, hedge, heq⟩ := List.mem_map.1 hab
    have hba := (swap_toWords_mem_iff hg hfit hedge).2 (swap_mem_directedEdges hg hclosed hedge)
    rw [heq] at hba
    exact ⟨List.count_eq_one_of_mem hnodup hab, List.count_eq_one_of_mem hnodup hba⟩
  · exact List.nodup_iff_count_le_one.1 hnodup (a, b)
  · constructor
    · rintro ⟨hab, hba⟩
      obtain ⟨edge, hedge, heq⟩ := List.mem_map.1 hab
      rw [← Prod.swap_prod_mk, ← heq, swap_toWords_mem_iff hg hfit hedge] at hba
      exact List.mem_map.2 ⟨edge, (swap_notMem_directedEdges_iff hg hopen).1 ⟨hedge, hba⟩, heq⟩
    · intro hab
      obtain ⟨edge, hedge, heq⟩ := List.mem_map.1 hab
      obtain ⟨hmem, hswap⟩ := (swap_notMem_directedEdges_iff hg hopen).2 hedge
      refine ⟨List.mem_map.2 ⟨edge, hmem, heq⟩, ?_⟩
      rw [← Prod.swap_prod_mk, ← heq, swap_toWords_mem_iff hg hfit hmem]
      exact hswap

/-- The smallest grids, closed and open, have as many faces and edges. The closed one goes both ways
between the bottom pole and a ring, the open one goes one way only along its seam. -/
theorem topology_manifold_smallest :
    (∃ faces, (Grid.mk 3 1 true).topology.faces? = some faces ∧ faces.length = 9 ∧
      (Face.directedEdges faces).length = 30 ∧
      (Face.directedEdges faces).count (0, 2) = 1 ∧
      (Face.directedEdges faces).count (2, 0) = 1) ∧
    ∃ faces, (Grid.mk 3 1 false).topology.faces? = some faces ∧ faces.length = 9 ∧
      (Face.directedEdges faces).length = 30 ∧
      ∀ a b, (a, b) ∈ Face.directedEdges faces ∧ (b, a) ∉ Face.directedEdges faces ↔
        (a, b) ∈ Face.loop [0, 4, 8, 9, 5, 1] := by
  constructor
  · obtain ⟨faces, hfaces, hcount, hedges, hclosed, -⟩ :=
      topology_manifold (g := ⟨3, 1, true⟩) (by decide) (by decide)
    have hedge : (Grid.mk 3 1 true).topology.faces?.any
        fun faces => (0, 2) ∈ Face.directedEdges faces := by decide +kernel
    rw [hfaces, Option.any_some, decide_eq_true_eq] at hedge
    exact ⟨faces, hfaces, hcount, hedges, hclosed rfl 0 2 hedge⟩
  · obtain ⟨faces, hfaces, hcount, hedges, -, hopen⟩ :=
      topology_manifold (g := ⟨3, 1, false⟩) (by decide) (by decide)
    exact ⟨faces, hfaces, hcount, hedges, (hopen rfl).2.2⟩

end Grid

end CapsuleImaging
