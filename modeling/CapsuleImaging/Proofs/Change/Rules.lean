import CapsuleImaging.Change.Property
import Mathlib.Data.List.Basic

/-!
# Rules that do not compete

A name is looked up among rules, and the first that is about it decides. Where no two rules are
about the same name (`apart`), or those that are say the same, being the first is no privilege: what
a name is given is what any rule about it says (`lookup?_eq_some_iff_of_agree`). And the rules for
all geometric prims leave the attributes of a capsule to the capsule (`not_applies_name`).
-/

namespace CapsuleImaging

namespace NameRule

variable {p q : NameRule} {name : String}

theorem applies_exactly {s : String} : (exactly s).applies name ↔ name = s := by
  rw [applies, beq_iff_eq, eq_comm]

theorem applies_startingWith {head : String} :
    (startingWith head).applies name ↔ ∃ rest, name = head ++ rest := by
  rw [applies, List.isPrefixOf_iff_prefix]
  constructor
  · rintro ⟨rest, h⟩
    refine ⟨String.ofList rest, String.toList_inj.1 ?_⟩
    rw [String.toList_append, String.toList_ofList, h]
  · rintro ⟨rest, rfl⟩
    rw [String.toList_append]
    exact List.prefix_append _ _

/-- Two rules are never about the same name. -/
def apart : NameRule → NameRule → Bool
  | .exactly a, q => !q.applies a
  | p, .exactly b => !p.applies b
  | .startingWith a, .startingWith b =>
    !a.toList.isPrefixOf b.toList && !b.toList.isPrefixOf a.toList

theorem not_applies_of_apart (h : apart p q) (hp : p.applies name) : ¬ q.applies name := by
  intro hq
  cases p with
  | exactly a =>
    obtain rfl := applies_exactly.1 hp
    simp [apart, hq] at h
  | startingWith a =>
    cases q with
    | exactly b =>
      obtain rfl := applies_exactly.1 hq
      simp [apart, hp] at h
    | startingWith b =>
      simp only [apart, Bool.and_eq_true, Bool.not_eq_true', ← Bool.not_eq_true,
        List.isPrefixOf_iff_prefix] at h
      simp only [applies, List.isPrefixOf_iff_prefix] at hp hq
      -- both begin the name, so one of them begins the other
      exact (List.prefix_or_prefix_of_prefix hp hq).elim h.1 h.2

/-- **Among rules that agree wherever they meet, being looked up first is no privilege.** -/
theorem lookup?_eq_some_iff_of_agree {α : Type} {table : List (NameRule × α)} {x : α}
    (h : table.Pairwise fun p q => apart p.1 q.1 ∨ p.2 = q.2) :
    lookup? table name = some x ↔ ∃ rule ∈ table, rule.1.applies name ∧ rule.2 = x := by
  induction table with
  | nil => simp [lookup?]
  | cons rule rest ih =>
    obtain ⟨hrule, hrest⟩ := List.pairwise_cons.1 h
    simp only [List.mem_cons, exists_eq_or_imp]
    by_cases happ : rule.1.applies name
    · have hsame : (∃ q ∈ rest, q.1.applies name ∧ q.2 = x) → rule.2 = x := by
        rintro ⟨q, hq, hqapp, rfl⟩
        exact (hrule q hq).resolve_left fun hapart => not_applies_of_apart hapart happ hqapp
      rw [or_iff_left_of_imp fun hq => ⟨happ, hsame hq⟩]
      simp [lookup?, happ]
    · rw [← ih hrest]
      simp [lookup?, happ]

/-- Among rules that are apart all the more so: they never meet. -/
theorem lookup?_eq_some_iff {α : Type} {table : List (NameRule × α)} {x : α}
    (h : table.Pairwise fun p q => apart p.1 q.1) :
    lookup? table name = some x ↔ ∃ rule ∈ table, rule.1.applies name ∧ rule.2 = x :=
  lookup?_eq_some_iff_of_agree (h.imp Or.inl)

end NameRule

/-- No rule for geometric prims is about what shapes a capsule. -/
theorem DirtyBits.not_applies_name (a : ShapeAttribute) :
    ∀ rule ∈ propertyTable, ¬ rule.1.applies a.name := by
  cases a <;> decide

end CapsuleImaging
