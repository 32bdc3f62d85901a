import CapsuleImaging.Proofs.Scene.Grammar

/-!
# Paths below a path

A child's path is read from the text of its parent, a slash and the name (`childText`). So a name is
accepted for what the whole text spells, and that is the parent's elements followed by those of the
name (`spells_childText_iff`): one element adds itself, several with slashes between them add
themselves in a row (`Relative`), and nothing at all behind the root's slash adds nothing.
-/

namespace CapsuleImaging

namespace PrimPath

/-- A name that leads through some elements, a slash between each two. -/
structure Relative (es : List String) (name : String) : Prop where
  ne_nil : es ≠ []
  isElement : ∀ e ∈ es, IsElement e
  text : name = "/".intercalate es

/-- What is read for a child. -/
def childText (p : PrimPath) (name : String) : String :=
  if p = root then "/" ++ name else p.text ++ "/" ++ name

variable {p q : PrimPath} {es fs : List String} {name : String}

theorem child_eq (p : PrimPath) (name : String) : p.child name = parse (p.childText name) := by
  unfold child childText
  split <;> rfl

/-- An element leads through itself. -/
theorem relative_singleton : Relative [name] name ↔ IsElement name := by
  constructor
  · intro h
    exact h.isElement name (List.mem_singleton_self name)
  · intro h
    refine ⟨List.cons_ne_nil _ _, fun e he => ?_, String.intercalate_singleton.symm⟩
    rwa [List.mem_singleton.1 he]

/-- A name leads through its parts, so it leads one way only. -/
theorem Relative.splitOn_eq (h : Relative es name) :
    name.toList.splitOn '/' = es.map String.toList := by
  have hne : es.map String.toList ≠ [] := fun hnil => h.ne_nil (List.map_eq_nil_iff.1 hnil)
  rw [h.text, String.toList_intercalate]
  exact List.splitOn_intercalate '/' (fun _ => slash_notMem_of_mem_map h.isElement) hne

theorem joined_append (es fs : List String) : joined (es ++ fs) = joined es ++ joined fs := by
  rw [← String.toList_inj, String.toList_append]
  simp only [toList_joined, List.flatMap_append]

/-- A slash before the first element, and one between each two, is a slash before each. -/
theorem joined_eq (h : es ≠ []) : joined es = "/" ++ "/".intercalate es := by
  obtain ⟨e, others, rfl⟩ := List.exists_cons_of_ne_nil h
  rw [← String.toList_inj, toList_joined, String.toList_append, String.toList_intercalate]
  have hsplit : "/".toList.intercalate ((e :: others).map String.toList) =
      e.toList ++ others.flatMap fun e => '/' :: e.toList := by
    rw [List.map_cons]
    exact (intercalate_cons '/' _ _).trans (by rw [List.flatMap_map])
  rw [hsplit]
  rfl

/-- The root's text is no exception once its elements are joined: there are none. -/
theorem Parsed.childText_eq (h : p.Parsed) (name : String) :
    p.childText name = joined p.elements ++ "/" ++ name := by
  unfold childText
  split
  · next hroot =>
    rw [hroot, elements_root]
    rfl
  · next hroot => rw [h.text_eq hroot]

theorem Parsed.absolute_childText (h : p.Parsed) (name : String) :
    Absolute (p.childText name) := by
  rw [h.childText_eq, absolute_iff, String.toList_append, String.toList_append, toList_joined]
  cases p.elements with
  | nil => exact ⟨name.toList, rfl⟩
  | cons e others =>
    exact ⟨e.toList ++ others.flatMap (fun e => '/' :: e.toList) ++ '/' :: name.toList, by simp⟩

/-- The text of a child splits into the elements of its parent and the parts of the name. -/
theorem splitOn_childText (name : String) (h : ∀ e ∈ es, IsElement e) :
    (joined es ++ "/" ++ name).toList.splitOn '/' =
      [] :: (es.map String.toList ++ name.toList.splitOn '/') := by
  have htext : (joined es ++ "/" ++ name).toList = (joined es).toList ++ '/' :: name.toList := by
    rw [String.toList_append, String.toList_append, List.append_assoc]
    rfl
  rw [htext, List.splitOn_append_cons_self, splitOn_joined h, List.cons_append]

/-- **What the text of a child spells**: the elements of the parent and those that the name leads
through, or nothing if both are without elements. -/
theorem Parsed.spells_childText_iff (h : p.Parsed) :
    Spells fs (p.childText name) ↔
      (∃ es, Relative es name ∧ fs = p.elements ++ es) ∨ (p = root ∧ name = "") ∧ fs = [] := by
  rw [h.childText_eq]
  constructor
  · intro hspells
    have hsplit := splitOn_childText name fun _ => isElement_of_mem_elements (p := p)
    generalize joined p.elements ++ "/" ++ name = text at hspells hsplit
    cases hspells with
    | root =>
      -- two empty parts, of which the parent has one at most
      have hparts : p.elements.map String.toList ++ name.toList.splitOn '/' = [[]] :=
        (List.cons.inj hsplit).2.symm
      obtain ⟨helements, hname⟩ := (List.append_eq_singleton_iff.1 hparts).resolve_right
        fun hnot => List.splitOn_ne_nil _ _ hnot.2
      have hroot : p = root := by
        by_contra hne
        exact h.elements_ne_nil hne (List.map_eq_nil_iff.1 helements)
      have hempty : ['/'].intercalate (name.toList.splitOn '/') = name.toList :=
        List.intercalate_splitOn '/'
      rw [hname] at hempty
      exact Or.inr ⟨⟨hroot, String.toList_eq_nil_iff.1 hempty.symm⟩, rfl⟩
    | joined hne helements =>
      rw [splitOn_joined helements] at hsplit
      obtain ⟨front, es, rfl, hfront, hes⟩ := List.map_eq_append_iff.1 (List.cons.inj hsplit).2
      obtain rfl : front = p.elements :=
        List.map_injective_iff.2 (fun _ _ => String.toList_inj.1) hfront
      refine Or.inl ⟨es, ⟨?_, fun e he => helements e (List.mem_append_right _ he), ?_⟩, rfl⟩
      · rintro rfl
        exact List.splitOn_ne_nil _ _ hes.symm
      · rw [← String.toList_inj, String.toList_intercalate, hes]
        exact (List.intercalate_splitOn '/').symm
  · rintro (⟨es, hname, rfl⟩ | ⟨⟨rfl, rfl⟩, rfl⟩)
    · have htext : joined p.elements ++ "/" ++ name = joined (p.elements ++ es) := by
        rw [joined_append, joined_eq hname.ne_nil, ← hname.text, String.append_assoc]
      rw [htext]
      refine .joined (List.append_ne_nil_of_right_ne_nil _ hname.ne_nil) fun e he => ?_
      exact (List.mem_append.1 he).elim isElement_of_mem_elements (hname.isElement e)
    · exact .root

/-- **What passes without being an element**: several elements at once, and nothing at all behind the
root. -/
def SlipsThrough (p : PrimPath) (name : String) : Prop :=
  (∃ es, 2 ≤ es.length ∧ Relative es name) ∨ p = root ∧ name = ""

/-- **The text of a child spells something** if the name is an element or slips through. -/
theorem Parsed.exists_spells_childText_iff (h : p.Parsed) (name : String) :
    (∃ fs, Spells fs (p.childText name)) ↔ IsElement name ∨ p.SlipsThrough name := by
  constructor
  · rintro ⟨fs, hspells⟩
    rcases h.spells_childText_iff.1 hspells with ⟨es, hname, -⟩ | ⟨hroot, -⟩
    · match es, hname with
      | [], hname => exact absurd rfl hname.ne_nil
      | [e], hname =>
        obtain rfl : name = e := hname.text.trans String.intercalate_singleton
        exact Or.inl (relative_singleton.1 hname)
      | e :: e' :: others, hname =>
        exact Or.inr (Or.inl ⟨_, by simp only [List.length_cons]; omega, hname⟩)
    · exact Or.inr (Or.inr hroot)
  · rintro (hname | ⟨es, -, hname⟩ | hroot)
    · exact ⟨_, h.spells_childText_iff.2 (Or.inl ⟨_, relative_singleton.2 hname, rfl⟩)⟩
    · exact ⟨_, h.spells_childText_iff.2 (Or.inl ⟨es, hname, rfl⟩)⟩
    · exact ⟨_, h.spells_childText_iff.2 (Or.inr ⟨hroot, rfl⟩)⟩

theorem Parsed.exists_child_iff (h : p.Parsed) (name : String) :
    (∃ q, p.child name = .ok q) ↔ IsElement name ∨ p.SlipsThrough name := by
  rw [← h.exists_spells_childText_iff, child_eq]
  simp only [parse_eq_ok_iff_spells, exists_and_right]
  exact and_iff_right ⟨⟨p.childText name⟩, rfl⟩

/-- What is refused is refused for an empty element. -/
theorem Parsed.child_eq_error_iff (h : p.Parsed) {e : PathError} :
    p.child name = .error e ↔ e = .emptyElement (p.childText name) ∧
      ¬ (IsElement name ∨ p.SlipsThrough name) := by
  rw [← h.exists_spells_childText_iff, child_eq, parse_eq_error_iff]
  simp only [h.absolute_childText name, not_true_eq_false, and_false, false_or, true_and]

/-- **A child by a name that leads through some elements** has these behind its parent's. -/
theorem Parsed.child_of_relative (h : p.Parsed) (hname : Relative es name) :
    ∃ q, p.child name = .ok q ∧ q.Parsed ∧ q.elements = p.elements ++ es ∧
      q.name = es.getLastD "" ∧ q ≠ p := by
  have hspells : Spells (p.elements ++ es) (p.childText name) :=
    h.spells_childText_iff.2 (Or.inl ⟨es, hname, rfl⟩)
  have helements := hspells.elements_eq
  refine ⟨⟨p.childText name⟩, (child_eq p name).trans hspells.parse_eq, ⟨_, hspells.parse_eq⟩,
    helements, hspells.name_eq.trans ?_, ?_⟩
  · obtain ⟨front, last, rfl⟩ := (List.eq_nil_or_concat' es).resolve_left hname.ne_nil
    rw [← List.append_assoc, List.getLastD_concat, List.getLastD_concat]
  · intro heq
    rw [heq, List.self_eq_append_right] at helements
    exact hname.ne_nil helements

/-- **A child has one element more**, which is its name; and a name that is no element is refused
unless it slips through. What slips through adds as many elements as it leads through: several, or
none at the root, which is its own child by the empty name. -/
theorem child_appends (h : p.Parsed) (name : String) :
    (IsElement name → ∃ q, p.child name = .ok q ∧ q.Parsed ∧
      q.elements = p.elements ++ [name] ∧ q.name = name ∧ q ≠ p) ∧
    (¬ p.SlipsThrough name →
      ((∃ q, p.child name = .ok q) ↔ IsElement name) ∧
      ((∃ e, p.child name = .error e) ↔ ¬ IsElement name)) ∧
    (∀ e, p.child name = .error e → e = .emptyElement (p.childText name)) ∧
    (∀ es, Relative es name → ∃ q, p.child name = .ok q ∧ q.Parsed ∧
      q.elements = p.elements ++ es ∧ q.name = es.getLastD "" ∧ q ≠ p) ∧
    (p = root → name = "" → p.child name = .ok p) := by
  refine ⟨fun hname => ?_, fun hslips => ⟨?_, ?_⟩, fun e he => ?_, fun es => ?_, ?_⟩
  · exact h.child_of_relative (relative_singleton.2 hname)
  · rw [h.exists_child_iff, or_iff_left hslips]
  · simp only [h.child_eq_error_iff, or_iff_left hslips, exists_eq_left]
  · exact (h.child_eq_error_iff.1 he).1
  · exact h.child_of_relative
  · rintro rfl rfl
    rfl

/-- An element, and a name with a slash too many. -/
theorem child_appends_nested :
    (∃ q, (PrimPath.mk "/World").child "a b" = .ok q ∧ q.elements = ["World", "a b"] ∧
      q.name = "a b") ∧
    (∃ e, (PrimPath.mk "/World").child "/a" = .error e) := by
  have hparsed : (PrimPath.mk "/World").Parsed := ⟨"/World", by decide⟩
  obtain ⟨hchild, -⟩ := child_appends hparsed "a b"
  obtain ⟨-, hslips, -⟩ := child_appends hparsed "/a"
  obtain ⟨q, hq, -, helements, hname, -⟩ := hchild (by decide)
  refine ⟨⟨q, hq, helements.trans (by decide), hname⟩, (hslips ?_).2.2 (by decide)⟩
  rintro (⟨es, -, hrelative⟩ | ⟨hroot, -⟩)
  · -- before the slash stands an empty part
    refine nil_notMem_map_toList hrelative.isElement ?_
    rw [← hrelative.splitOn_eq]
    decide
  · exact absurd hroot (by decide)

/-- **A name of two elements makes a grandchild, and the root is its own child by an empty name.** -/
theorem child_of_no_element :
    (PrimPath.mk "/a").Parsed ∧ ¬ IsElement "b/c" ∧
      (PrimPath.mk "/a").child "b/c" = .ok ⟨"/a/b/c"⟩ ∧
      (PrimPath.mk "/a/b/c").elements = (PrimPath.mk "/a").elements ++ ["b", "c"] ∧
      root.Parsed ∧ ¬ IsElement "" ∧ root.child "" = .ok root :=
  ⟨⟨"/a", by decide⟩, by decide, by decide, by decide, ⟨"/", by decide⟩, by decide, by decide⟩

end PrimPath

end CapsuleImaging
