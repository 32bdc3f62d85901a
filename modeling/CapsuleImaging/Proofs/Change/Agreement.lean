import CapsuleImaging.Proofs.Change.MinimalCover
import CapsuleImaging.Proofs.Change.ShortCircuit

/-!
# Tables that agree

What depends on a property is looked up in three places: by the tracker, for the category to ask
about; as dirty bits, for what an edit makes stale; and as locators, for where that is found. Each
sorts all names there can be, by some names and by some beginnings of names. What a name stands for
is said here once (`Affects`), and each of the three is compared with it. A name that stands for
nothing makes everything stale, as bits and as locators.
-/

namespace CapsuleImaging

namespace ShapeAttribute

theorem ofName?_eq_some_iff {name : String} {a : ShapeAttribute} :
    ofName? name = some a ↔ a.name = name := by
  constructor
  · intro h
    have hfound := List.find?_some h
    exact beq_iff_eq.1 hfound
  · rintro rfl
    cases a <;> decide

theorem ofName?_eq_none_iff {name : String} :
    ofName? name = none ↔ ∀ a : ShapeAttribute, a.name ≠ name := by
  simp only [Option.eq_none_iff_forall_ne_some, ne_eq, ofName?_eq_some_iff]

end ShapeAttribute

namespace DirtyBits

/-- **The category of output that a property affects**, if it is known. -/
inductive Affects : String → DirtyBits → Prop
  /-- What shapes a capsule moves its points. -/
  | shape (a : ShapeAttribute) : Affects a.name points
  | visibility : Affects "visibility" visibility
  | extent : Affects "extent" extent
  | doubleSided : Affects "doubleSided" doubleSided
  /-- The order of the transforms. -/
  | order : Affects "xformOpOrder" transform
  /-- A transform. -/
  | op (rest : String) : Affects ("xformOp:" ++ rest) transform
  /-- The binding of a material, or one for some purpose. -/
  | material (rest : String) : Affects ("material:binding" ++ rest) materialId
  | primvar (rest : String) : Affects ("primvars:" ++ rest) primvar

variable {name : String} {category : DirtyBits}

/-- **The rules tell what a property affects**, but for what shapes a capsule. -/
theorem affects_iff : Affects name category ↔
    (∃ a : ShapeAttribute, a.name = name ∧ category = points) ∨
      ∃ rule ∈ propertyTable, rule.1.applies name ∧ rule.2 = category := by
  constructor
  · intro h
    cases h with
    | shape a => exact Or.inl ⟨a, rfl, rfl⟩
    | visibility => exact Or.inr ⟨(.exactly "visibility", _), by decide, by decide, rfl⟩
    | extent => exact Or.inr ⟨(.exactly "extent", _), by decide, by decide, rfl⟩
    | doubleSided => exact Or.inr ⟨(.exactly "doubleSided", _), by decide, by decide, rfl⟩
    | order => exact Or.inr ⟨(.exactly "xformOpOrder", _), by decide, by decide, rfl⟩
    | op rest =>
      exact Or.inr ⟨(.startingWith "xformOp:", _), by decide,
        NameRule.applies_startingWith.2 ⟨rest, rfl⟩, rfl⟩
    | material rest =>
      exact Or.inr ⟨(.startingWith "material:binding", _), by decide,
        NameRule.applies_startingWith.2 ⟨rest, rfl⟩, rfl⟩
    | primvar rest =>
      exact Or.inr ⟨(.startingWith "primvars:", _), by decide,
        NameRule.applies_startingWith.2 ⟨rest, rfl⟩, rfl⟩
  · rintro (⟨a, rfl, rfl⟩ | ⟨rule, hrule, happ, rfl⟩)
    · exact .shape a
    · simp only [propertyTable, List.mem_cons, List.not_mem_nil, or_false] at hrule
      obtain rfl | rfl | rfl | rfl | rfl | rfl | rfl | rfl := hrule
      · exact NameRule.applies_exactly.1 happ ▸ .visibility
      · exact NameRule.applies_exactly.1 happ ▸ .extent
      · exact NameRule.applies_exactly.1 happ ▸ .doubleSided
      · exact NameRule.applies_exactly.1 happ ▸ .order
      · obtain rfl := NameRule.applies_exactly.1 happ
        exact .material ""
      · obtain ⟨rest, rfl⟩ := NameRule.applies_startingWith.1 happ
        exact .op rest
      · obtain ⟨rest, rfl⟩ := NameRule.applies_startingWith.1 happ
        exact .material rest
      · obtain ⟨rest, rfl⟩ := NameRule.applies_startingWith.1 happ
        exact .primvar rest

/-! ## Dirty bits -/

/-- What a rule says of a name is what an edit makes stale: rules that meet agree. -/
theorem lookup?_propertyTable_eq_some_iff :
    NameRule.lookup? propertyTable name = some category ↔
      ∃ rule ∈ propertyTable, rule.1.applies name ∧ rule.2 = category := by
  have hagree : propertyTable.Pairwise fun p q => NameRule.apart p.1 q.1 ∨ p.2 = q.2 := by decide
  exact NameRule.lookup?_eq_some_iff_of_agree hagree

theorem Affects.ofCapsuleProperty_eq (h : Affects name category) :
    ofCapsuleProperty name = category := by
  rcases affects_iff.1 h with ⟨a, rfl, rfl⟩ | hrule
  · exact ofCapsuleProperty_name a
  · have hnone : ShapeAttribute.ofName? name = none := by
      rw [ShapeAttribute.ofName?_eq_none_iff]
      rintro a rfl
      obtain ⟨rule, hmem, happ, -⟩ := hrule
      exact not_applies_name a rule hmem happ
    rw [ofCapsuleProperty, hnone, ofProperty, lookup?_propertyTable_eq_some_iff.2 hrule]
    rfl

/-- **A property that is not known makes everything stale.** -/
theorem ofProperty_of_unknown (h : ∀ category, ¬ Affects name category) :
    ShapeAttribute.ofName? name = none ∧ ofProperty name = all := by
  constructor
  · rw [ShapeAttribute.ofName?_eq_none_iff]
    rintro a rfl
    exact h _ (.shape a)
  · unfold ofProperty
    cases hlookup : NameRule.lookup? propertyTable name with
    | none => rfl
    | some category =>
      have hrule := lookup?_propertyTable_eq_some_iff.1 hlookup
      exact absurd (affects_iff.2 (Or.inr hrule)) (h category)

theorem ofCapsuleProperty_of_unknown (h : ∀ category, ¬ Affects name category) :
    ofCapsuleProperty name = all := by
  obtain ⟨hname, hall⟩ := ofProperty_of_unknown h
  rw [ofCapsuleProperty, hname, hall]
  rfl

theorem Affects.ne_all (h : Affects name category) : category ≠ all := by
  cases h <;> decide

/-! ## Locators -/

/-- Data is concerned by some categories, though not all, if it is by the place of one of them. -/
theorem intersects_locators {bits : DirtyBits} {l : Locator} (h : ¬ bits.contains all) :
    bits.locators.intersects l ↔
      ∃ entry ∈ locatorTable, bits.contains entry.1 ∧ entry.2.intersects l := by
  rw [locators, if_neg h, (LocatorSet.Covers.ofList _).intersects_iff]
  simp only [List.mem_map, List.mem_filter, exists_exists_and_eq_and]
  simp only [and_assoc]

/-- **Where the bits of an edit say that something is stale**, the locators of the edit say so. -/
theorem intersects_invalidatedBy_of_locators {l : Locator}
    (h : (ofCapsuleProperty name).locators.intersects l) :
    (LocatorSet.invalidatedBy [name]).intersects l := by
  rw [LocatorSet.intersects_invalidatedBy]
  refine ⟨name, List.mem_singleton_self name, ?_⟩
  cases hname : ShapeAttribute.ofName? name with
  | some a =>
    obtain rfl := ShapeAttribute.ofName?_eq_some_iff.1 hname
    rw [ofCapsuleProperty_name, intersects_locators (by decide)] at h
    obtain ⟨entry, hentry, hpoints, hl⟩ := h
    -- the points are in one place
    have htable : ∀ entry ∈ locatorTable, points.contains entry.1 → entry.2 = .points := by decide
    rw [htable entry hentry hpoints] at hl
    exact (LocatorSet.intersects_madeStale_shape a).2
      ⟨_, List.mem_append_right _ (List.mem_singleton_self _), hl⟩
  | none =>
    rw [ofCapsuleProperty, hname] at h
    unfold LocatorSet.madeStale LocatorSet.invalidateProperty
    rw [hname]
    exact LocatorSet.intersects_union.2 (Or.inr h)

/-- An unknown property makes everything stale wherever it is. -/
theorem invalidatedBy_of_unknown (h : ∀ category, ¬ Affects name category) :
    LocatorSet.invalidatedBy [name] = .universal := by
  obtain ⟨hname, hall⟩ := ofProperty_of_unknown h
  have hputIn : [name].flatMap LocatorSet.putInBy = [.root] := by
    have hroot : LocatorSet.universal.toList = [.root] := by decide +kernel
    rw [List.flatMap_singleton, LocatorSet.putInBy, hname, hall]
    exact hroot
  have hcovers := LocatorSet.covers_invalidatedBy [name]
  rw [hputIn] at hcovers
  exact hcovers.eq_of_mem_iff (LocatorSet.Covers.empty.insert .root) fun _ => Iff.rfl

/-- A known property never makes the connectivity stale. -/
theorem not_intersects_topology_of_affects (h : Affects name category) :
    ¬ (LocatorSet.invalidatedBy [name]).intersects .topology := by
  rw [LocatorSet.intersects_invalidatedBy]
  rintro ⟨other, hother, hl⟩
  obtain rfl := List.mem_singleton.1 hother
  refine LocatorSet.not_intersects_topology ?_ hl
  cases hname : ShapeAttribute.ofName? other with
  | some a => exact Or.inl rfl
  | none =>
    have hne : ofCapsuleProperty other ≠ all := h.ofCapsuleProperty_eq ▸ h.ne_all
    rw [ofCapsuleProperty, hname] at hne
    exact Or.inr hne

end DirtyBits

namespace Variability

open DirtyBits

variable {v : Variability} {stage stage' : Stage} {path path' : PrimPath} {name : String}
  {category : DirtyBits}

/-- **What is tracked by an attribute is what the attribute affects.** -/
theorem Contributes.affects (h : Contributes stage path name category) :
    Affects name category := by
  cases h with
  | order => exact .order
  | op rest => exact .op rest
  | visibility => exact .visibility
  | extent => exact .extent
  | primvar rest => exact .primvar rest
  | shape schema a => exact .shape a

/-- An attribute contributes wherever it may vary, for a capsule of the same schema. -/
theorem Contributes.of_mayVary (h : Contributes stage path name category)
    (hschema : CapsuleSchema.of? stage path = CapsuleSchema.of? stage' path')
    (hvary : stage'.mayVary path' name) : Contributes stage' path' name category := by
  have hauthored := Stage.mem_attributeNames_of_mayVary hvary
  cases h with
  | order => exact .order hauthored
  | op rest => exact .op rest hauthored
  | visibility => exact .visibility hauthored
  | extent => exact .extent hauthored
  | primvar rest => exact .primvar rest hauthored
  | shape schema a h ha => exact .shape schema a (hschema ▸ h) ha

/-- **What tracking finds because of one attribute**, an edit of the attribute makes stale: of two
prims of one schema, where no other attribute varies on the first only, whatever is found of the
first is found of the second or made stale by an edit of that attribute. -/
theorem contains_trackCapsule_union
    (hschema : CapsuleSchema.of? stage path = CapsuleSchema.of? stage' path')
    (hvary : ∀ other, other ≠ name → stage.mayVary path other → stage'.mayVary path' other) :
    ((v.trackCapsule stage' path').varying ∪ ofCapsuleProperty name).contains
      (v.trackCapsule stage path).varying := by
  refine DirtyBits.contains_iff.2 fun i hi => ?_
  rw [word_union, BitVec.getLsbD_or, Bool.or_eq_true]
  rcases (isUnion_trackCapsule v stage path i).1 hi with hbefore | ⟨c, ⟨other, hc, hother⟩, hbit⟩
  · exact Or.inl ((isUnion_trackCapsule v stage' path' i).2 (Or.inl hbefore))
  · by_cases hname : other = name
    · subst hname
      rw [hc.affects.ofCapsuleProperty_eq]
      exact Or.inr hbit
    · have hother' := hvary other hname hother
      refine Or.inl ((isUnion_trackCapsule v stage' path' i).2 (Or.inr ⟨c, ?_, hbit⟩))
      exact ⟨other, hc.of_mayVary hschema hother', hother'⟩

end Variability

namespace DirtyBits

open Variability

/-- **The three tables agree on every name.** Whatever tracking finds because of an attribute, and
each category that it asks about for the attribute, an edit of the attribute makes stale as dirty
bits; and where these say that something is stale, the locators of the edit say so. A property that
affects some category makes just that stale, and never the connectivity; a property that is not
known to affect any makes all categories stale, and all data wherever it is. -/
theorem tables_agree (name : String) :
    (∀ (v : Variability) (stage stage' : Stage) (path path' : PrimPath),
      CapsuleSchema.of? stage path = CapsuleSchema.of? stage' path' →
      (∀ other, other ≠ name → stage.mayVary path other → stage'.mayVary path' other) →
      ((v.trackCapsule stage' path').varying ∪ ofCapsuleProperty name).contains
        (v.trackCapsule stage path).varying) ∧
    (∀ (stage : Stage) (path : PrimPath) (category : DirtyBits),
      (name, category) ∈ capsuleChecks stage path →
        (ofCapsuleProperty name).contains category) ∧
    (∀ l, (ofCapsuleProperty name).locators.intersects l →
      (LocatorSet.invalidatedBy [name]).intersects l) ∧
    (∀ category, Affects name category → ofCapsuleProperty name = category ∧ category ≠ all ∧
      ¬ (LocatorSet.invalidatedBy [name]).intersects .topology) ∧
    ((∀ category, ¬ Affects name category) → ofCapsuleProperty name = all ∧
      (ofCapsuleProperty name).locators = .universal ∧
      LocatorSet.invalidatedBy [name] = .universal) := by
  refine ⟨fun v stage stage' path path' => contains_trackCapsule_union,
    fun stage path category h => ?_, fun l => intersects_invalidatedBy_of_locators,
    fun category h => ⟨h.ofCapsuleProperty_eq, h.ne_all, not_intersects_topology_of_affects h⟩,
    fun h => ?_⟩
  · rw [(mem_capsuleChecks_iff.1 h).affects.ofCapsuleProperty_eq]
    exact contains_self category
  · have hall := ofCapsuleProperty_of_unknown h
    refine ⟨hall, ?_, invalidatedBy_of_unknown h⟩
    rw [hall]
    rfl

/-- A capsule that grows, and one that does not. -/
def growingBeside : Stage :=
  .editAll .empty
    [.define ⟨"/c"⟩ "Capsule", .define ⟨"/d"⟩ "Capsule",
      .setSample ⟨"/c"⟩ "height" 0 (.double 1), .setSample ⟨"/c"⟩ "height" 1 (.double 2)]

/-- The height that varies, a property that is not known and one that is. -/
theorem tables_agree_growing :
    ((trackCapsule {} growingBeside ⟨"/d"⟩).varying ∪ ofCapsuleProperty "height").contains
        (trackCapsule {} growingBeside ⟨"/c"⟩).varying ∧
      (trackCapsule {} growingBeside ⟨"/c"⟩).varying = points ∧
      (ofCapsuleProperty "height").contains points ∧
      (LocatorSet.invalidatedBy ["height"]).intersects .points ∧
      LocatorSet.invalidatedBy ["purpose"] = .universal ∧
      ofCapsuleProperty "primvars:st" = primvar := by
  obtain ⟨htracked, hchecked, hlocators, -⟩ := tables_agree "height"
  obtain ⟨-, -, -, -, hunknown⟩ := tables_agree "purpose"
  obtain ⟨-, -, -, hknown, -⟩ := tables_agree "primvars:st"
  refine ⟨htracked {} _ _ _ _ (by decide +kernel) ?_, by decide +kernel,
    hchecked growingBeside ⟨"/c"⟩ points (by decide +kernel), hlocators _ (by decide +kernel),
    (hunknown ?_).2.2, (hknown primvar (.primvar "st")).1⟩
  · intro other hother hvary
    have hnames : growingBeside.attributeNames ⟨"/c"⟩ = ["height"] := by decide +kernel
    have hauthored := Stage.mem_attributeNames_of_mayVary hvary
    rw [hnames] at hauthored
    exact absurd (List.mem_singleton.1 hauthored) hother
  · have hshape : ∀ a : ShapeAttribute, a.name ≠ "purpose" := by
      intro a
      cases a <;> decide
    have hrules : ∀ rule ∈ propertyTable, ¬ rule.1.applies "purpose" := by decide
    intro category h
    rcases affects_iff.1 h with ⟨a, ha, -⟩ | ⟨rule, hrule, happ, -⟩
    · exact hshape a ha
    · exact hrules rule hrule happ

end DirtyBits

end CapsuleImaging
