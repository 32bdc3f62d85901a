import CapsuleImaging.Scene.Path
import Mathlib.Data.List.Infix

/-!
# Paths by their elements

The text of a path stands for its **elements**, the names on the way from the root
(`toList_text`). One path lies below another if its elements begin with those of the other and go
on. By the texts that is to go on behind a slash (`isBelow_iff`), so `/Worldly` is not below
`/World` and `/a-b` not below `/a`. The root has no elements, and every other path lies below it
(`descends_root`). But its text ends in the slash behind which the others go on, and by the texts
none of them is below it (`not_isBelow_root`).
-/

namespace CapsuleImaging

namespace PrimPath

/-- A path that has been read from some text. -/
def Parsed (p : PrimPath) : Prop :=
  ∃ text, parse text = .ok p

/-- The names on the way from the root: what stands between the slashes. -/
def elements (p : PrimPath) : List String :=
  ((p.text.toList.splitOn '/').filter (· ≠ [])).map String.ofList

/-- Whether `q` lies below `p`: its elements begin with those of `p`, and go on. -/
def Descends (q p : PrimPath) : Prop :=
  p.elements <+: q.elements ∧ p.elements ≠ q.elements

instance (q p : PrimPath) : Decidable (q.Descends p) :=
  inferInstanceAs (Decidable (_ ∧ _))

variable {p q : PrimPath}

theorem elements_root : root.elements = [] := by
  decide

/-- A split text comes together again with a separator before each part but the first. -/
theorem intercalate_cons {α : Type} (sep : α) (part : List α) (parts : List (List α)) :
    [sep].intercalate (part :: parts) = part ++ parts.flatMap (sep :: ·) := by
  induction parts generalizing part with
  | nil => simp
  | cons next rest ih =>
    rw [List.intercalate_cons_cons, ih, List.flatMap_cons, List.append_assoc, List.singleton_append,
      List.cons_append]

/-- **Which texts are read**: the slash alone, or a slash and parts between slashes of which none is
empty. -/
theorem parse_eq_ok_iff {text : String} :
    parse text = .ok p ↔ p.text = text ∧
      ∃ rest, text.toList = '/' :: rest ∧ (rest = [] ∨ [] ∉ rest.splitOn '/') := by
  unfold parse
  split
  · next rest heq =>
    simp only [heq, List.cons.injEq, true_and, exists_eq_left']
    split
    · next h => simp [h]
    · next h =>
      have hparts : rest = [] ∨ [] ∉ rest.splitOn '/' := by
        rw [← not_ne_iff (a := rest), ← not_and_or]
        exact h
      rw [Except.ok.injEq, and_iff_left hparts]
      constructor
      · rintro rfl
        rfl
      · rintro rfl
        rfl
  · next hnot =>
    constructor
    · intro h
      cases h
    · rintro ⟨-, rest, heq, -⟩
      exact absurd heq (hnot rest)

namespace Parsed

/-- A path other than the root splits into nothing, before its first slash, and its elements. -/
theorem splitOn_text (h : p.Parsed) (hroot : p ≠ root) :
    p.text.toList.splitOn '/' = [] :: p.elements.map String.toList := by
  obtain ⟨text, hparse⟩ := h
  obtain ⟨rfl, rest, hrest, hparts⟩ := parse_eq_ok_iff.1 hparse
  have hne : rest ≠ [] := by
    rintro rfl
    refine hroot (congrArg PrimPath.mk ?_)
    exact String.toList_inj.1 hrest
  have hsplit : p.text.toList.splitOn '/' = [] :: rest.splitOn '/' := by
    rw [hrest]
    exact List.splitOnP_append_cons [] rest (beq_self_eq_true '/')
  -- no part is empty, so none is dropped
  have hkept : (rest.splitOn '/').filter (· ≠ []) = rest.splitOn '/' := by
    rw [List.filter_eq_self]
    intro part hpart
    have : part ≠ [] := fun hnil => hparts.resolve_left hne (hnil ▸ hpart)
    simpa using this
  have hback : String.toList ∘ String.ofList = id := funext fun _ => String.toList_ofList
  rw [elements, hsplit, List.filter_cons_of_neg (by simp), hkept, List.map_map, hback, List.map_id]

/-- **The text of a path** is a slash and an element, as often as there are elements. -/
theorem toList_text (h : p.Parsed) (hroot : p ≠ root) :
    p.text.toList = p.elements.flatMap fun e => '/' :: e.toList := by
  have hjoined : ['/'].intercalate (p.text.toList.splitOn '/') = p.text.toList :=
    List.intercalate_splitOn '/'
  rw [h.splitOn_text hroot, intercalate_cons, List.flatMap_map] at hjoined
  exact hjoined.symm

theorem elements_ne_nil (h : p.Parsed) (hroot : p ≠ root) : p.elements ≠ [] := by
  intro hnil
  have htext := h.toList_text hroot
  obtain ⟨text, hparse⟩ := h
  obtain ⟨rfl, rest, hrest, -⟩ := parse_eq_ok_iff.1 hparse
  rw [hnil, List.flatMap_nil, hrest] at htext
  cases htext

/-- **Every other path lies below the root.** -/
theorem descends_root (h : p.Parsed) (hroot : p ≠ root) : p.Descends root := by
  rw [Descends, elements_root]
  exact ⟨List.nil_prefix, (h.elements_ne_nil hroot).symm⟩

/-- **By the texts no path is below the root**: it would begin with two slashes. -/
theorem not_isBelow_root (h : p.Parsed) : ¬ root.isBelow p := by
  intro hbelow
  obtain ⟨more, hmore⟩ : ['/', '/'] <+: p.text.toList := List.isPrefixOf_iff_prefix.1 hbelow
  obtain ⟨text, hparse⟩ := h
  obtain ⟨rfl, rest, hrest, hparts⟩ := parse_eq_ok_iff.1 hparse
  obtain rfl : rest = '/' :: more := by
    rw [← hmore] at hrest
    exact (List.cons.inj hrest).2.symm
  -- what stands between the two slashes is empty
  have hsplit : ('/' :: more).splitOn '/' = [] :: more.splitOn '/' :=
    List.splitOnP_append_cons [] more (beq_self_eq_true '/')
  rw [hsplit] at hparts
  exact hparts.resolve_left (List.cons_ne_nil _ _) List.mem_cons_self

/-- No path is below one with elements without having elements itself. -/
theorem ne_root_of_isBelow (hp : p.Parsed) (hroot : p ≠ root) (hbelow : p.isBelow q) :
    q ≠ root := by
  rintro rfl
  obtain ⟨more, hmore⟩ : p.text.toList ++ ['/'] <+: ['/'] := List.isPrefixOf_iff_prefix.1 hbelow
  have hlength := congrArg List.length hmore
  have hnil : p.text.toList = [] := by
    rw [← List.length_eq_zero_iff]
    simp only [List.length_append, List.length_singleton] at hlength
    omega
  have hsplit := hp.splitOn_text hroot
  rw [hnil, List.splitOn_nil] at hsplit
  exact hp.elements_ne_nil hroot (List.map_eq_nil_iff.1 (List.cons.inj hsplit).2.symm)

/-- **Off the root, a path is below another by their texts exactly if it is by their elements.** -/
theorem isBelow_iff (hp : p.Parsed) (hroot : p ≠ root) (hq : q.Parsed) :
    p.isBelow q ↔ q.Descends p := by
  constructor
  · intro hbelow
    have hqroot := hp.ne_root_of_isBelow hroot hbelow
    obtain ⟨rest, hrest⟩ : p.text.toList ++ ['/'] <+: q.text.toList :=
      List.isPrefixOf_iff_prefix.1 hbelow
    -- behind the text of `p` and the slash, the text of `q` splits into further elements
    have hsplit : q.text.toList.splitOn '/' = p.text.toList.splitOn '/' ++ rest.splitOn '/' := by
      rw [← hrest, List.append_assoc, List.singleton_append]
      exact List.splitOnP_append_cons _ rest (beq_self_eq_true '/')
    rw [hq.splitOn_text hqroot, hp.splitOn_text hroot, List.cons_append] at hsplit
    have helements := (List.cons.inj hsplit).2
    constructor
    · rw [← List.prefix_map_iff_of_injective fun _ _ => String.toList_inj.1, helements]
      exact List.prefix_append _ _
    · intro heq
      rw [heq, List.self_eq_append_right] at helements
      exact List.splitOn_ne_nil _ _ helements
  · rintro ⟨⟨more, hmore⟩, hne⟩
    cases more with
    | nil => exact absurd (hmore ▸ (List.append_nil _).symm) hne
    | cons e rest =>
      have hqroot : q ≠ root := by
        rintro rfl
        rw [elements_root] at hmore
        simp at hmore
      rw [isBelow, List.isPrefixOf_iff_prefix, hp.toList_text hroot, hq.toList_text hqroot, ← hmore,
        List.flatMap_append, List.flatMap_cons]
      refine ⟨e.toList ++ rest.flatMap fun e => '/' :: e.toList, ?_⟩
      simp only [List.append_assoc, List.cons_append, List.nil_append]

end Parsed

end PrimPath

end CapsuleImaging
