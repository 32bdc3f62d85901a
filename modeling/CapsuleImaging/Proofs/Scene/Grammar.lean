import CapsuleImaging.Proofs.Scene.Elements
import Mathlib.Data.List.DropRight

/-!
# The grammar of paths

The text of a path spells its elements, a slash before each; where there are none it is a slash
alone (`Spells`). A text spells one list of elements at most (`Spells.elements_eq`), and those that
spell one are the texts that are read (`parse_eq_ok_iff_spells`). What is refused is either not
absolute, or it has a slash without an element behind it (`spells_iff_not_hasStraySlash`).
-/

namespace CapsuleImaging

namespace PrimPath

/-- What may stand between two slashes. -/
def IsElement (e : String) : Prop :=
  e ≠ "" ∧ '/' ∉ e.toList

instance (e : String) : Decidable (IsElement e) :=
  inferInstanceAs (Decidable (_ ∧ _))

/-- Some elements in one text, a slash before each. -/
def joined (es : List String) : String :=
  String.join (es.map ("/" ++ ·))

/-- **What a text spells.** -/
inductive Spells : List String → String → Prop
  /-- A slash alone is the root, which has no elements. -/
  | root : Spells [] "/"
  /-- Any other path has some, and each has a slash before it. -/
  | joined {es : List String} (hne : es ≠ []) (helements : ∀ e ∈ es, IsElement e) :
      Spells es (joined es)

/-- A text that begins with a slash. -/
def Absolute (text : String) : Prop :=
  ∃ rest, text = "/" ++ rest

/-- A text with a slash that has no element behind it: the last character of several, or one of two
slashes together. -/
def HasStraySlash (text : String) : Prop :=
  (∃ front, front ≠ "" ∧ text = front ++ "/") ∨ ∃ front back, text = front ++ "//" ++ back

variable {p : PrimPath} {es : List String} {text : String}

theorem absolute_iff : Absolute text ↔ ∃ rest, text.toList = '/' :: rest := by
  constructor
  · rintro ⟨rest, rfl⟩
    exact ⟨rest.toList, String.toList_append⟩
  · rintro ⟨rest, h⟩
    refine ⟨String.ofList rest, String.toList_inj.1 ?_⟩
    rw [h, String.toList_append, String.toList_ofList, String.toList_ofList, List.singleton_append]

/-! ## Splitting -/

/-- No part of a split text has the separator in it. -/
theorem notMem_of_mem_splitOn {sep : Char} {cs part : List Char} (h : part ∈ cs.splitOn sep) :
    sep ∉ part := by
  induction cs generalizing part with
  | nil =>
    obtain rfl := List.mem_singleton.1 h
    exact List.not_mem_nil
  | cons c rest ih =>
    rw [List.splitOn_cons_eq_if_modifyHead] at h
    split at h
    · rcases List.mem_cons.1 h with rfl | h
      · exact List.not_mem_nil
      · exact ih h
    · next hne =>
      -- the character goes to the front of the first part
      obtain ⟨first, others, hsplit⟩ := List.exists_cons_of_ne_nil (List.splitOn_ne_nil sep rest)
      rw [hsplit] at h ih
      rcases List.mem_cons.1 h with rfl | h
      · have hfirst : sep ∉ first := ih List.mem_cons_self
        rintro hmem
        rcases List.mem_cons.1 hmem with rfl | hmem
        · exact hne (beq_self_eq_true sep)
        · exact hfirst hmem
      · exact ih (List.mem_cons_of_mem _ h)

theorem isElement_of_mem_elements {e : String} (h : e ∈ p.elements) : IsElement e := by
  obtain ⟨part, hpart, rfl⟩ := List.mem_map.1 h
  obtain ⟨hsplit, hne⟩ := List.mem_filter.1 hpart
  refine ⟨fun hempty => ?_, ?_⟩
  · have hnil : part = [] := by
      rw [← String.toList_ofList (l := part), hempty]
      rfl
    simp [hnil] at hne
  · rw [String.toList_ofList]
    exact notMem_of_mem_splitOn hsplit

theorem toList_joined (es : List String) :
    (joined es).toList = es.flatMap fun e => '/' :: e.toList := by
  rw [joined, String.toList_join, List.flatMap_map]
  simp only [String.toList_append]
  rfl

/-- No slash is in elements taken as lists of characters. -/
theorem slash_notMem_of_mem_map (h : ∀ e ∈ es, IsElement e) {part : List Char}
    (hpart : part ∈ es.map String.toList) : '/' ∉ part := by
  obtain ⟨e, he, rfl⟩ := List.mem_map.1 hpart
  exact (h e he).2

/-- Joined elements split into nothing, before the first slash, and themselves. -/
theorem splitOn_joined (h : ∀ e ∈ es, IsElement e) :
    (joined es).toList.splitOn '/' = [] :: es.map String.toList := by
  have hjoined : ['/'].intercalate ([] :: es.map String.toList) = (joined es).toList := by
    rw [intercalate_cons, toList_joined, List.flatMap_map, List.nil_append]
  have hparts : ∀ part ∈ [] :: es.map String.toList, '/' ∉ part := by
    intro part hpart
    rcases List.mem_cons.1 hpart with rfl | hpart
    · exact List.not_mem_nil
    · exact slash_notMem_of_mem_map h hpart
  rw [← hjoined, List.splitOn_intercalate '/' hparts (List.cons_ne_nil _ _)]

/-- What stands behind a slash is split on its own, with nothing before the slash. -/
theorem splitOn_cons_slash (rest : List Char) :
    ('/' :: rest).splitOn '/' = [] :: rest.splitOn '/' :=
  List.splitOn_append_cons_self [] rest

/-- Elements are not empty as lists of characters either. -/
theorem nil_notMem_map_toList (h : ∀ e ∈ es, IsElement e) : [] ∉ es.map String.toList := by
  intro hnil
  obtain ⟨e, he, hempty⟩ := List.mem_map.1 hnil
  exact (h e he).1 (String.toList_eq_nil_iff.1 hempty)

/-! ## Reading -/

theorem elements_joined (h : ∀ e ∈ es, IsElement e) : (PrimPath.mk (joined es)).elements = es := by
  have hkept : (es.map String.toList).filter (· ≠ []) = es.map String.toList := by
    rw [List.filter_eq_self]
    intro part hpart
    have : part ≠ [] := fun hnil => nil_notMem_map_toList h (hnil ▸ hpart)
    simpa using this
  have hback : String.ofList ∘ String.toList = id := funext fun _ => String.ofList_toList
  rw [elements, splitOn_joined h, List.filter_cons_of_neg (by simp), hkept, List.map_map, hback,
    List.map_id]

/-- **A text spells the elements of its path**, so it spells one list only. -/
theorem Spells.elements_eq (h : Spells es text) : (PrimPath.mk text).elements = es := by
  cases h with
  | root => exact elements_root
  | joined _ helements => exact elements_joined helements

theorem Spells.parse_eq (h : Spells es text) : parse text = .ok ⟨text⟩ := by
  refine parse_eq_ok_iff.2 ⟨rfl, ?_⟩
  cases h with
  | root => exact ⟨[], rfl, Or.inl rfl⟩
  | joined hne helements =>
    obtain ⟨e, others, rfl⟩ := List.exists_cons_of_ne_nil hne
    have hsplit := splitOn_joined helements
    rw [toList_joined, List.flatMap_cons, List.cons_append] at hsplit ⊢
    rw [splitOn_cons_slash] at hsplit
    refine ⟨_, rfl, Or.inr ?_⟩
    rw [(List.cons.inj hsplit).2]
    exact nil_notMem_map_toList helements

theorem Parsed.text_eq (h : p.Parsed) (hroot : p ≠ root) : p.text = joined p.elements := by
  rw [← String.toList_inj, toList_joined, h.toList_text hroot]

/-- A path that has been read spells its elements. -/
theorem Parsed.spells (h : p.Parsed) : Spells p.elements p.text := by
  by_cases hroot : p = root
  · rw [hroot, elements_root]
    exact .root
  · rw [h.text_eq hroot]
    exact .joined (h.elements_ne_nil hroot) fun _ => isElement_of_mem_elements

/-- **What is read is what spells some elements.** -/
theorem parse_eq_ok_iff_spells : parse text = .ok p ↔ p.text = text ∧ ∃ es, Spells es text := by
  constructor
  · intro h
    obtain rfl := text_of_parse h
    exact ⟨rfl, p.elements, Parsed.spells ⟨_, h⟩⟩
  · rintro ⟨rfl, es, h⟩
    exact h.parse_eq

/-- **The name of a path** is the last of its elements. -/
theorem Spells.name_eq (h : Spells es text) : (PrimPath.mk text).name = es.getLastD "" := by
  cases h with
  | root => decide
  | joined hne helements =>
    have hlast : (es.map String.toList).getLastD "".toList = (es.getLastD "").toList :=
      List.getLastD_map
    rw [name, splitOn_joined helements, List.getLastD_cons]
    exact (congrArg String.ofList hlast).trans String.ofList_toList

/-- Looking for the last slash from the right finds the same name. -/
theorem toList_name (p : PrimPath) : p.name.toList = p.text.toList.rtakeWhile (· ≠ '/') := by
  rw [name, String.toList_ofList]
  generalize p.text.toList = cs
  have hlast : '/' ∉ cs.rtakeWhile (· ≠ '/') := by
    intro hmem
    simpa using List.mem_rtakeWhile_imp hmem
  have hwhole := cs.rdropWhile_append_rtakeWhile (p := (· ≠ '/'))
  rcases List.eq_nil_or_concat' (cs.rdropWhile (· ≠ '/')) with hfront | ⟨before, c, hfront⟩
  · -- there is no slash at all
    rw [hfront, List.nil_append] at hwhole
    rw [hwhole] at hlast ⊢
    rw [List.splitOn_eq_singleton hlast]
    rfl
  · have hslash : c = '/' := by
      have hne : cs.rdropWhile (· ≠ '/') ≠ [] := hfront ▸ List.concat_ne_nil c before
      have hnot := List.rdropWhile_last_not _ _ hne
      simp only [hfront, List.getLast_append_singleton] at hnot
      simpa using hnot
    rw [hfront, hslash, List.append_assoc, List.singleton_append] at hwhole
    conv_lhs => rw [← hwhole]
    rw [List.splitOn_append_cons_self, List.splitOn_eq_singleton hlast, List.getLastD_concat]

/-! ## Refusing -/

/-- An absolute text that spells nothing has an empty part behind its first slash. -/
theorem exists_empty_part (habsolute : Absolute text) (hnone : ¬ ∃ es, Spells es text) :
    ∃ rest, text.toList = '/' :: rest ∧ rest ≠ [] ∧ [] ∈ rest.splitOn '/' := by
  obtain ⟨rest, hrest⟩ := absolute_iff.1 habsolute
  refine ⟨rest, hrest, ?_⟩
  by_contra hnot
  rw [not_and_or, not_ne_iff] at hnot
  have hread : parse text = .ok ⟨text⟩ := parse_eq_ok_iff.2 ⟨rfl, rest, hrest, hnot⟩
  exact hnone (parse_eq_ok_iff_spells.1 hread).2

theorem parse_of_not_absolute (h : ¬ Absolute text) :
    parse text = .error (.notAbsolute text) := by
  unfold parse
  split
  · next rest hrest => exact absurd (absolute_iff.2 ⟨rest, hrest⟩) h
  · rfl

theorem parse_of_absolute (habsolute : Absolute text) (hnone : ¬ ∃ es, Spells es text) :
    parse text = .error (.emptyElement text) := by
  obtain ⟨rest, hrest, hparts⟩ := exists_empty_part habsolute hnone
  simp only [parse, hrest]
  rw [if_pos hparts]

/-- **What is refused, and why.** -/
theorem parse_eq_error_iff {e : PathError} :
    parse text = .error e ↔
      (e = .notAbsolute text ∧ ¬ Absolute text) ∨
        (e = .emptyElement text ∧ Absolute text ∧ ¬ ∃ es, Spells es text) := by
  constructor
  · intro h
    by_cases habsolute : Absolute text
    · have hnone : ¬ ∃ es, Spells es text := by
        rintro ⟨es, hspells⟩
        rw [hspells.parse_eq] at h
        cases h
      rw [parse_of_absolute habsolute hnone] at h
      cases h
      exact Or.inr ⟨rfl, habsolute, hnone⟩
    · rw [parse_of_not_absolute habsolute] at h
      cases h
      exact Or.inl ⟨rfl, habsolute⟩
  · rintro (⟨rfl, hnot⟩ | ⟨rfl, habsolute, hnone⟩)
    · exact parse_of_not_absolute hnot
    · exact parse_of_absolute habsolute hnone

/-- **A stray slash leaves an empty part.** -/
theorem Spells.not_hasStraySlash (h : Spells es text) : ¬ HasStraySlash text := by
  cases h with
  | root =>
    rintro (⟨front, hne, heq⟩ | ⟨front, back, heq⟩)
    · have hchars := congrArg String.toList heq
      rw [String.toList_append, List.self_eq_append_left] at hchars
      exact hne (String.toList_eq_nil_iff.1 hchars)
    · have hlength := congrArg String.length heq
      have hone : "/".length = 1 := by decide
      have htwo : "//".length = 2 := by decide
      simp only [String.length_append] at hlength
      omega
  | joined hne helements =>
    have hpart : ∀ (front : List Char) (parts : List (List Char)),
        (PrimPath.joined es).toList.splitOn '/' ≠ front.splitOn '/' ++ [] :: parts := by
      intro front parts hsplit
      obtain ⟨first, others, hfront⟩ := List.exists_cons_of_ne_nil (List.splitOn_ne_nil '/' front)
      rw [splitOn_joined helements, hfront, List.cons_append] at hsplit
      refine nil_notMem_map_toList helements ?_
      rw [(List.cons.inj hsplit).2]
      exact List.mem_append_right _ List.mem_cons_self
    rintro (⟨front, -, heq⟩ | ⟨front, back, heq⟩)
    · refine hpart front.toList [] ?_
      rw [heq, String.toList_append]
      exact List.splitOn_append_cons_self _ _
    · refine hpart front.toList (back.toList.splitOn '/') ?_
      rw [heq, String.toList_append, String.toList_append, List.append_assoc,
        ← splitOn_cons_slash]
      exact List.splitOn_append_cons_self _ _

/-- An absolute text is a slash before each of the parts behind its first slash. -/
theorem eq_flatMap_of_absolute {rest : List Char} (h : text.toList = '/' :: rest) :
    text.toList = (rest.splitOn '/').flatMap ('/' :: ·) := by
  have hjoined : ['/'].intercalate (text.toList.splitOn '/') = text.toList :=
    List.intercalate_splitOn '/'
  rw [h, splitOn_cons_slash, intercalate_cons, List.nil_append] at hjoined
  rw [h, hjoined]

theorem hasStraySlash_of_not_spells (habsolute : Absolute text) (hnone : ¬ ∃ es, Spells es text) :
    HasStraySlash text := by
  obtain ⟨rest, hrest, hne, hmem⟩ := exists_empty_part habsolute hnone
  obtain ⟨before, behind, hsplit⟩ := List.append_of_mem hmem
  have htext : text.toList =
      before.flatMap ('/' :: ·) ++ '/' :: behind.flatMap ('/' :: ·) := by
    rw [eq_flatMap_of_absolute hrest, hsplit, List.flatMap_append, List.flatMap_cons]
    rfl
  cases behind with
  | nil =>
    refine Or.inl ⟨String.ofList (before.flatMap ('/' :: ·)), fun hempty => hne ?_, ?_⟩
    · -- nothing before the empty part: the text is a slash alone
      rw [String.ofList_eq_empty_iff.1 hempty, hrest] at htext
      exact (List.cons.inj htext).2
    · rw [← String.toList_inj, htext, String.toList_append, String.toList_ofList]
      rfl
  | cons part parts =>
    refine Or.inr ⟨String.ofList (before.flatMap ('/' :: ·)),
      String.ofList (part ++ parts.flatMap ('/' :: ·)), String.toList_inj.1 ?_⟩
    rw [htext]
    simp

/-- **An absolute text spells something unless it has a stray slash.** -/
theorem spells_iff_not_hasStraySlash (habsolute : Absolute text) :
    (∃ es, Spells es text) ↔ ¬ HasStraySlash text := by
  constructor
  · rintro ⟨es, h⟩
    exact h.not_hasStraySlash
  · intro hnot
    by_contra hnone
    exact hnot (hasStraySlash_of_not_spells habsolute hnone)

/-- **Reading accepts exactly the grammar of paths.** A text is read if and only if it spells some
elements. It is then kept as it is, these are its elements and it spells no others, and its name is
the last of them, whichever end the last slash is looked for from. A text that does not begin with a
slash is refused for that; any other that spells nothing, which is one with a stray slash, is refused
for an empty element; and there is no further reason. -/
theorem parse_spelled (text : String) :
    (∀ p, parse text = .ok p ↔ p.text = text ∧ ∃ es, Spells es text) ∧
    (∀ es, Spells es text →
      (PrimPath.mk text).elements = es ∧ (∀ others, Spells others text → others = es) ∧
      (PrimPath.mk text).name = es.getLastD "" ∧
      (PrimPath.mk text).name.toList = text.toList.rtakeWhile (· ≠ '/')) ∧
    (parse text = .error (.notAbsolute text) ↔ ¬ Absolute text) ∧
    (parse text = .error (.emptyElement text) ↔ Absolute text ∧ ¬ ∃ es, Spells es text) ∧
    (parse text = .error (.emptyElement text) ↔ Absolute text ∧ HasStraySlash text) ∧
    ∀ e, parse text = .error e → e = .notAbsolute text ∨ e = .emptyElement text := by
  have hempty : parse text = .error (.emptyElement text) ↔
      Absolute text ∧ ¬ ∃ es, Spells es text := by
    rw [parse_eq_error_iff]
    simp
  refine ⟨fun p => parse_eq_ok_iff_spells, fun es h => ?_, ?_, hempty, hempty.trans ?_, ?_⟩
  · refine ⟨h.elements_eq, fun others hothers => ?_, h.name_eq, toList_name _⟩
    exact hothers.elements_eq.symm.trans h.elements_eq
  · rw [parse_eq_error_iff]
    simp
  · refine and_congr_right fun habsolute => ?_
    rw [spells_iff_not_hasStraySlash habsolute, not_not]
  · intro e h
    exact (parse_eq_error_iff.1 h).imp And.left And.left

theorem parse_spelled_nested :
    Spells ["World", "a b"] "/World/a b" ∧
      parse "/World/a b" = .ok ⟨"/World/a b"⟩ ∧ (PrimPath.mk "/World/a b").name = "a b" ∧
      parse "/World//a b" = .error (.emptyElement "/World//a b") := by
  have hjoined : "/World/a b" = joined ["World", "a b"] := by decide
  have hspells : Spells ["World", "a b"] "/World/a b" := by
    rw [hjoined]
    exact .joined (by decide) (by decide)
  obtain ⟨hread, hspelled, -⟩ := parse_spelled "/World/a b"
  obtain ⟨-, -, -, -, hstray, -⟩ := parse_spelled "/World//a b"
  refine ⟨hspells, (hread _).2 ⟨rfl, _, hspells⟩, (hspelled _ hspells).2.2.1, hstray.2 ⟨?_, ?_⟩⟩
  · exact ⟨"World//a b", by decide⟩
  · exact Or.inr ⟨"/World", "a b", by decide⟩

end PrimPath

end CapsuleImaging
