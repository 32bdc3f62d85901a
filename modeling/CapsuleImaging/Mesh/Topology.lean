import CapsuleImaging.Mesh.Vector

/-!
# Mesh connectivity

A mesh lists how many vertices each face has and, in one run, the points that the faces visit.
`MeshTopology.validate` compares the two lists with each other and with the number of points;
`MeshTopology.faces?` cuts the run into faces, which fails when a face would run past its end.
-/

namespace CapsuleImaging

/-- Which points the faces of a mesh visit, as two buffers of 32-bit words. -/
structure MeshTopology where
  /-- How many vertices each face has. -/
  counts : List UInt32
  /-- The points visited, face after face. -/
  indices : List UInt32
deriving DecidableEq, Repr, Inhabited

/-- Why a connectivity does not fit a number of points. -/
inductive TopologyError where
  /-- The faces take more or fewer indices than there are. -/
  | countMismatch (counted indices : Nat)
  /-- An index names no point. -/
  | indexOutOfRange (index : UInt32) (points : Nat)
deriving DecidableEq, Repr

/-- What a reader is told about a connectivity that does not fit. -/
def TopologyError.message : TopologyError → String
  | .countMismatch counted indices =>
    s!"face vertex counts sum to {counted}, but there are {indices} indices"
  | .indexOutOfRange index points =>
    s!"face vertex index {index.toNat} out of range for {points} points"

namespace MeshTopology

/-- No faces. -/
def empty : MeshTopology := ⟨[], []⟩

/-- The buffers of a list of faces. -/
def ofFaces (faces : List (List Nat)) : MeshTopology where
  counts := faces.map fun face => UInt32.ofNat face.length
  indices := faces.flatten.map UInt32.ofNat

/-- How many faces there are. -/
def faceCount (m : MeshTopology) : Nat :=
  m.counts.length

/-- Whether there is no face. -/
def isEmpty (m : MeshTopology) : Bool :=
  m.counts.isEmpty

/-- How many indices the faces take together. -/
def counted (m : MeshTopology) : Nat :=
  m.counts.foldr (fun count total => count.toNat + total) 0

/-- **Check against a number of points**: the faces take up the indices exactly, and each index
is below the number. The totals are compared first; of the indices, the first offender is
named. -/
def validate (m : MeshTopology) (points : Nat) : Except TopologyError Unit :=
  if m.counted ≠ m.indices.length then .error (.countMismatch m.counted m.indices.length)
  else match m.indices.find? (points ≤ ·.toNat) with
    | some index => .error (.indexOutOfRange index points)
    | none => .ok ()

/-- The indices cut into runs of the given lengths, or nothing if they run out. -/
def cut? : List UInt32 → List UInt32 → Option (List (List UInt32))
  | [], _ => some []
  | count :: counts, indices =>
    if count.toNat ≤ indices.length then
      (cut? counts (indices.drop count.toNat)).map (indices.take count.toNat :: ·)
    else none

/-- The faces, each as the points it visits. -/
def faces? (m : MeshTopology) : Option (List (List UInt32)) :=
  cut? m.counts m.indices

end MeshTopology

/-- The points of a mesh with its connectivity. -/
structure MeshBuffers where
  points : List Point
  topology : MeshTopology
deriving DecidableEq, Repr

/-- The four bytes of a word, the least significant first. -/
def littleEndian (word : UInt32) : List UInt8 :=
  [word.toUInt8, (word >>> 8).toUInt8, (word >>> 16).toUInt8, (word >>> 24).toUInt8]

namespace MeshBuffers

/-- Whether the connectivity fits the points. -/
def validate (m : MeshBuffers) : Except TopologyError Unit :=
  m.topology.validate m.points.length

/-- The points as they lie in a vertex buffer. -/
def pointBytes (m : MeshBuffers) : List UInt8 :=
  m.points.flatMap fun p => [p.x, p.y, p.z].flatMap fun c => littleEndian c.toBits

/-- The indices as they lie in an index buffer. -/
def indexBytes (m : MeshBuffers) : List UInt8 :=
  m.topology.indices.flatMap littleEndian

end MeshBuffers

end CapsuleImaging
