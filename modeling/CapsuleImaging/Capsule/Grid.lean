import CapsuleImaging.Capsule.Sweep
import CapsuleImaging.Mesh.Topology

/-!
# The capsule grid

How the points of a capsule are numbered and joined depends on its resolution alone, and on
whether the sweep closes it. Point `0` is the bottom pole; then come the rings from the bottom
up, half of them in each cap; the last point is the top pole. A closed ring has `radial` points,
an open one has one more, its two ends being apart.

The faces are a fan of triangles around either pole and strips of quads between the rings, all
counter-clockwise as seen from outside.
-/

namespace CapsuleImaging

/-- A resolution: the columns around the spine, the rings in either cap, and whether the rings
close. -/
structure Grid where
  radial : Nat
  capAxial : Nat
  closed : Bool
deriving DecidableEq, Repr, Inhabited

namespace Grid

/-- The least number of columns with a body. -/
def minRadial : Nat := 3

/-- The least number of rings in a cap. -/
def minCapAxial : Nat := 1

/-- The grid of a resolution whose rings cover a sweep. -/
def ofSweep (radial capAxial : Nat) (degrees : Float) : Grid :=
  ⟨radial, capAxial, Sweep.closes degrees⟩

variable (g : Grid)

/-- Whether the resolution suffices for a body; below that the capsule is empty. -/
def IsRenderable : Prop :=
  minRadial ≤ g.radial ∧ minCapAxial ≤ g.capAxial

instance : Decidable g.IsRenderable :=
  inferInstanceAs (Decidable (_ ∧ _))

/-- The points of one ring. -/
def ringLength : Nat :=
  if g.closed then g.radial else g.radial + 1

/-- The rings of both caps. -/
def rings : Nat :=
  2 * g.capAxial

/-- The points of the whole capsule. -/
def pointCount : Nat :=
  if g.IsRenderable then g.rings * g.ringLength + 2 else 0

/-- The number of the point in a ring and a column. -/
def vertex (ring column : Nat) : Nat :=
  1 + ring * g.ringLength + column

/-- The bottom pole. -/
def bottomPole : Nat := 0

/-- The top pole, behind the last ring. -/
def topPole : Nat :=
  g.vertex g.rings 0

/-- The column after one, around the spine. -/
def next (column : Nat) : Nat :=
  if g.closed then (column + 1) % g.radial else column + 1

/-- The triangles around the bottom pole. -/
def bottomFan : List (List Nat) :=
  (List.range g.radial).map fun i => [bottomPole, g.vertex 0 (g.next i), g.vertex 0 i]

/-- The quads between a ring and the one above it. -/
def strip (ring : Nat) : List (List Nat) :=
  (List.range g.radial).map fun i =>
    [g.vertex ring i, g.vertex ring (g.next i), g.vertex (ring + 1) (g.next i),
      g.vertex (ring + 1) i]

/-- The triangles around the top pole. -/
def topFan : List (List Nat) :=
  (List.range g.radial).map fun i =>
    [g.vertex (g.rings - 1) i, g.vertex (g.rings - 1) (g.next i), g.topPole]

/-- The faces from the bottom up. -/
def faces : List (List Nat) :=
  g.bottomFan ++ (List.range (g.rings - 1)).flatMap g.strip ++ g.topFan

/-- **The connectivity of a capsule.** -/
def topology : MeshTopology :=
  if g.IsRenderable then MeshTopology.ofFaces g.faces else .empty

end Grid

end CapsuleImaging
