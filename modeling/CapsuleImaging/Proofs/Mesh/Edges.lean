import CapsuleImaging.Proofs.Mesh.Slices

/-!
# Directed edges

A face goes around its points, so its directed edges are the pairs of neighbours in it, from the
last point back to the first included. What is proved of faces as they are built holds of the
buffers: the faces come back out as they went in, each number as a word (`faces?_ofFaces`).
-/

namespace CapsuleImaging

namespace Face

variable {α β : Type}

/-- The pairs of neighbours in a list. -/
def chain : List α → List (α × α)
  | a :: b :: rest => (a, b) :: chain (b :: rest)
  | _ => []

/-- **The directed edges of a face**: the pairs of neighbours, the last point with the first
included. -/
def loop (face : List α) : List (α × α) :=
  chain (face ++ face.take 1)

/-- The directed edges of all faces. -/
def directedEdges (faces : List (List α)) : List (α × α) :=
  faces.flatMap loop

theorem length_chain (l : List α) : (chain l).length = l.length - 1 := by
  induction l with
  | nil => rfl
  | cons a rest ih =>
    cases rest with
    | nil => rfl
    | cons b rest =>
      rw [chain, List.length_cons, ih]
      rfl

theorem directedEdges_append (faces more : List (List α)) :
    directedEdges (faces ++ more) = directedEdges faces ++ directedEdges more :=
  List.flatMap_append

/-- A face has as many directed edges as points. -/
theorem length_loop (face : List α) : (loop face).length = face.length := by
  rw [loop, length_chain, List.length_append, List.length_take]
  omega

theorem length_directedEdges {faces : List (List α)} {n : Nat}
    (h : ∀ face ∈ faces, face.length = n) : (directedEdges faces).length = faces.length * n := by
  have hloops : faces.map (fun face => (loop face).length) = faces.map fun _ => n :=
    List.map_congr_left fun face hface => (length_loop face).trans (h face hface)
  rw [directedEdges, List.length_flatMap, hloops, List.map_const', List.sum_replicate_nat]

theorem chain_map (f : α → β) (l : List α) : chain (l.map f) = (chain l).map (Prod.map f f) := by
  induction l with
  | nil => rfl
  | cons a rest ih =>
    cases rest with
    | nil => rfl
    | cons b rest =>
      rw [List.map_cons, List.map_cons, chain, ← List.map_cons, ih, chain, List.map_cons]
      rfl

theorem loop_map (f : α → β) (face : List α) :
    loop (face.map f) = (loop face).map (Prod.map f f) := by
  rw [loop, ← List.map_take, ← List.map_append, chain_map, loop]

theorem directedEdges_map (f : α → β) (faces : List (List α)) :
    directedEdges (faces.map (·.map f)) = (directedEdges faces).map (Prod.map f f) := by
  induction faces with
  | nil => rfl
  | cons face rest ih =>
    simp only [directedEdges, List.map_cons, List.flatMap_cons, List.map_append] at ih ⊢
    rw [ih, loop_map]

theorem mem_of_mem_chain {l : List α} {edge : α × α} (h : edge ∈ chain l) :
    edge.1 ∈ l ∧ edge.2 ∈ l := by
  induction l with
  | nil => cases h
  | cons a rest ih =>
    cases rest with
    | nil => cases h
    | cons b rest =>
      rcases List.mem_cons.1 h with rfl | h
      · exact ⟨List.mem_cons_self, List.mem_cons_of_mem _ List.mem_cons_self⟩
      · exact ⟨List.mem_cons_of_mem _ (ih h).1, List.mem_cons_of_mem _ (ih h).2⟩

/-- An edge joins points of a face. -/
theorem exists_face_of_mem_directedEdges {faces : List (List α)} {edge : α × α}
    (h : edge ∈ directedEdges faces) : ∃ face ∈ faces, edge.1 ∈ face ∧ edge.2 ∈ face := by
  obtain ⟨face, hface, hedge⟩ := List.mem_flatMap.1 h
  have hpoint : ∀ a ∈ face ++ face.take 1, a ∈ face := by
    intro a ha
    rcases List.mem_append.1 ha with ha | ha
    · exact ha
    · exact List.mem_of_mem_take ha
  obtain ⟨hfrom, hto⟩ := mem_of_mem_chain hedge
  exact ⟨face, hface, hpoint _ hfrom, hpoint _ hto⟩

/-- A chain may be cut at any of its points. -/
theorem chain_append (l m : List α) (a : α) :
    chain (l ++ a :: m) = chain (l ++ [a]) ++ chain (a :: m) := by
  induction l with
  | nil => rfl
  | cons b rest ih =>
    cases rest with
    | nil => rfl
    | cons c rest =>
      simp only [List.cons_append, chain] at ih ⊢
      rw [ih]

/-- Backwards, the pairs are turned around. -/
theorem chain_reverse (l : List α) : chain l.reverse = (chain l).reverse.map Prod.swap := by
  induction l with
  | nil => rfl
  | cons a rest ih =>
    cases rest with
    | nil => rfl
    | cons b rest =>
      rw [List.reverse_cons, List.reverse_cons, List.append_assoc, List.singleton_append,
        chain_append, ← List.reverse_cons, ih]
      change _ = ((a, b) :: chain (b :: rest)).reverse.map Prod.swap
      rw [List.reverse_cons, List.map_append]
      rfl

/-- The chain through the values of a function. -/
theorem chain_map_range (f : Nat → α) (n : Nat) :
    chain ((List.range (n + 1)).map f) = (List.range n).map fun k => (f k, f (k + 1)) := by
  induction n with
  | zero => rfl
  | succ n ih =>
    have hsplit : (List.range (n + 1 + 1)).map f =
        (List.range n).map f ++ f n :: [f (n + 1)] := by
      rw [List.range_succ, List.range_succ, List.map_append, List.map_append, List.append_assoc]
      rfl
    have hfront : (List.range n).map f ++ [f n] = (List.range (n + 1)).map f := by
      rw [List.range_succ, List.map_append]
      rfl
    rw [hsplit, chain_append, hfront, ih, List.range_succ, List.map_append]
    rfl

/-- An edge between words. -/
def toWords (edge : Nat × Nat) : UInt32 × UInt32 :=
  Prod.map UInt32.ofNat UInt32.ofNat edge

theorem loop_toWords (face : List Nat) :
    loop (face.map UInt32.ofNat) = (loop face).map toWords :=
  loop_map _ _

theorem directedEdges_toWords (faces : List (List Nat)) :
    directedEdges (faces.map (·.map UInt32.ofNat)) = (directedEdges faces).map toWords :=
  directedEdges_map _ _

/-- Words tell apart what fits into them. -/
theorem ofNat_inj {m n : Nat} (hm : m < UInt32.size) (hn : n < UInt32.size)
    (h : UInt32.ofNat m = UInt32.ofNat n) : m = n := by
  rw [← UInt32.toNat_ofNat_of_lt' hm, ← UInt32.toNat_ofNat_of_lt' hn, h]

theorem toWords_inj {edge edge' : Nat × Nat} (h : edge.1 < UInt32.size ∧ edge.2 < UInt32.size)
    (h' : edge'.1 < UInt32.size ∧ edge'.2 < UInt32.size) (heq : toWords edge = toWords edge') :
    edge = edge' := by
  obtain ⟨hfrom, hto⟩ := Prod.mk.inj heq
  exact Prod.ext (ofNat_inj h.1 h'.1 hfrom) (ofNat_inj h.2 h'.2 hto)

end Face

namespace MeshTopology

/-- **The faces come out of the buffers as they went in.** -/
theorem faces?_ofFaces {faces : List (List Nat)}
    (hlength : ∀ face ∈ faces, face.length < UInt32.size) :
    (ofFaces faces).faces? = some (faces.map (·.map UInt32.ofNat)) := by
  refine cut?_eq_some_iff.2 ⟨map_length_ofFaces hlength, ?_⟩
  rw [← List.map_flatten]
  exact List.prefix_rfl

end MeshTopology

end CapsuleImaging
