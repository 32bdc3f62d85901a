import CapsuleImaging.Proofs.Change.Coverage
import CapsuleImaging.Proofs.Scene.Child

/-!
# The text of a locator

With a slash in front, the text of a locator is that of a path with the same elements (`path`), as
long as each element is one: not empty, and without a slash (`IsPlain`). So what is known of paths
carries over. A locator is read back from its text, since the text of a path spells its elements and
no others; and one locator leads through another exactly if its text goes on behind the other's and
a slash, or is the same, since a path lies below another exactly so. The root alone is an exception:
every locator leads through it, and its text has nothing for a slash to stand behind.
-/

namespace CapsuleImaging

namespace Locator

open PrimPath

/-- A locator whose elements may all stand between two slashes. -/
def IsPlain (l : Locator) : Prop :=
  ∀ e ∈ l.elements, IsElement e

instance (l : Locator) : Decidable l.IsPlain :=
  inferInstanceAs (Decidable (∀ e ∈ l.elements, IsElement e))

/-- The path with the elements of a locator. -/
def path (l : Locator) : PrimPath :=
  ⟨"/" ++ l.text⟩

variable {a b l : Locator}

/-- What is read leaves no part out but those that are empty. -/
theorem isPlain_parse (text : String) : (parse text).IsPlain :=
  fun _ he => isElement_of_mem_elements (p := ⟨text⟩) he

theorem toList_slash_append (text : String) : ("/" ++ text).toList = '/' :: text.toList :=
  String.toList_append

/-- A slash in front adds an empty part only, so a locator is read as a path is. -/
theorem elements_parse (text : String) :
    (parse text).elements = (PrimPath.mk ("/" ++ text)).elements := by
  rw [PrimPath.elements, toList_slash_append, splitOn_cons_slash,
    List.filter_cons_of_neg (by simp)]
  rfl

theorem IsPlain.spells (h : l.IsPlain) : Spells l.elements l.path.text := by
  by_cases hnil : l.elements = []
  · have htext : l.path.text = "/" := by
      rw [path, text, hnil]
      rfl
    rw [hnil, htext]
    exact .root
  · have htext : l.path.text = joined l.elements := (joined_eq hnil).symm
    rw [htext]
    exact .joined hnil h

theorem IsPlain.elements_path (h : l.IsPlain) : l.path.elements = l.elements :=
  h.spells.elements_eq

theorem IsPlain.parsed_path (h : l.IsPlain) : l.path.Parsed :=
  ⟨l.path.text, h.spells.parse_eq⟩

/-- **A locator is read back from its text.** -/
theorem IsPlain.parse_text (h : l.IsPlain) : parse l.text = l := by
  have helements : (parse l.text).elements = l.elements := by
    rw [elements_parse]
    exact h.elements_path
  exact congrArg Locator.mk helements

/-- A path lies below another by their texts exactly if the locators' texts say so. -/
theorem isBelow_path : b.path.isBelow a.path ↔ ∃ rest, a.text = b.text ++ "/" ++ rest := by
  rw [isBelow, List.isPrefixOf_iff_prefix, path, path, toList_slash_append, toList_slash_append,
    List.cons_append, List.cons_prefix_cons, and_iff_right rfl]
  constructor
  · rintro ⟨rest, hrest⟩
    refine ⟨String.ofList rest, String.toList_inj.1 ?_⟩
    rw [String.toList_append, String.toList_append, String.toList_ofList (l := rest)]
    exact hrest.symm
  · rintro ⟨rest, hrest⟩
    rw [hrest, String.toList_append, String.toList_append]
    exact List.prefix_append _ _

/-- **One locator leads through another exactly if their texts say so.** -/
theorem isWithin_iff_text (ha : a.IsPlain) (hb : b.IsPlain) :
    a.isWithin b ↔ b.elements = [] ∨ a.text = b.text ∨ ∃ rest, a.text = b.text ++ "/" ++ rest := by
  rw [isWithin_iff]
  by_cases hnil : b.elements = []
  · rw [hnil]
    exact iff_of_true List.nil_prefix (Or.inl rfl)
  · have hroot : b.path ≠ .root := fun hroot => by
      rw [← hb.elements_path, hroot] at hnil
      exact hnil elements_root
    have hbelow := hb.parsed_path.isBelow_iff hroot ha.parsed_path
    rw [isBelow_path, Descends, ha.elements_path, hb.elements_path] at hbelow
    rw [or_iff_right hnil, hbelow]
    constructor
    · intro hfront
      by_cases hsame : b.elements = a.elements
      · exact Or.inl (by rw [text, text, hsame])
      · exact Or.inr ⟨hfront, hsame⟩
    · rintro (htext | ⟨hfront, -⟩)
      · -- locators with one text are one locator
        rw [← ha.parse_text, ← hb.parse_text, htext]
      · exact hfront

/-- **Locators and their texts say the same.** What is read from a text has only elements that may
stand between slashes, and reading its own text gives it again. Every locator of such elements is
what is read from its text. Of two of them, one leads through the other if that is the root, or has
the same text, or its text and a slash stand in front of the one's. -/
theorem text_faithful :
    (∀ text : String, (∀ e ∈ (parse text).elements, e ≠ "" ∧ '/' ∉ e.toList) ∧
      parse (parse text).text = parse text) ∧
    (∀ l : Locator, (∀ e ∈ l.elements, e ≠ "" ∧ '/' ∉ e.toList) → parse l.text = l) ∧
    ∀ a b : Locator, (∀ e ∈ a.elements, e ≠ "" ∧ '/' ∉ e.toList) →
      (∀ e ∈ b.elements, e ≠ "" ∧ '/' ∉ e.toList) →
      (a.isWithin b ↔
        b.elements = [] ∨ a.text = b.text ∨ ∃ rest, a.text = b.text ++ "/" ++ rest) := by
  refine ⟨fun text => ⟨isPlain_parse text, ?_⟩, fun l hl => ?_, fun a b ha hb => ?_⟩
  · exact (isPlain_parse text).parse_text
  · exact IsPlain.parse_text hl
  · exact isWithin_iff_text ha hb

/-- A text with slashes to spare, and a locator whose text begins with another's without a slash to
follow. -/
theorem text_faithful_siblings :
    parse (parse "//mesh//topology/").text = topology ∧ parse topology.text = topology ∧
      topology.isWithin (parse "mesh") ∧
      ¬ ∃ rest, (parse "meshes").text = (parse "mesh").text ++ "/" ++ rest := by
  obtain ⟨hread, hback, hwithin⟩ := text_faithful
  have htopology : parse "//mesh//topology/" = topology := by decide
  have hmesh := (hread "mesh").1
  refine ⟨(hread _).2.trans htopology, hback topology (by decide), ?_, fun hrest => ?_⟩
  · exact (hwithin topology _ (by decide) hmesh).2 (Or.inr (Or.inr ⟨"topology", by decide⟩))
  · have hmeshes := (hwithin _ _ (hread "meshes").1 hmesh).2 (Or.inr (Or.inr hrest))
    exact absurd hmeshes (by decide)

end Locator

end CapsuleImaging
