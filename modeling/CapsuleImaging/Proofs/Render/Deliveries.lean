import CapsuleImaging.Proofs.Capsule.Reading
import CapsuleImaging.Proofs.Change.Coverage
import CapsuleImaging.Proofs.Change.ShortCircuit
import CapsuleImaging.Proofs.Render.Lifetime

/-!
# Outputs that rest

A sync delivers an output if its category is dirty. It leaves nothing dirty, and a category becomes
dirty again by an edit that makes it stale or, if it is on record as varying, by a move in time. The
connectivity and the material are on no record (`Cell.timeless_invariant`), so while a prim lives
they rest as a sync has left them until an edit makes them stale (`Cell.lasting_rests`): the
connectivity until an edit that makes everything stale, the material until one of its binding.
-/

namespace CapsuleImaging

open Std

namespace DirtyBits

variable {name : String}

/-- What an edit makes stale on a capsule: its points, or what a rule says, or everything. -/
theorem ofCapsuleProperty_cases (name : String) :
    ofCapsuleProperty name = points ∨
      (∃ rule ∈ propertyTable, rule.1.applies name ∧ ofCapsuleProperty name = rule.2) ∨
      ofCapsuleProperty name = all := by
  unfold ofCapsuleProperty
  split
  · exact Or.inl rfl
  · exact Or.inr (ofProperty_of_rule_or_eq_all name)

/-- An edit makes the connectivity stale only where it makes everything stale. -/
theorem not_contains_topology_ofCapsuleProperty (h : ofCapsuleProperty name ≠ all) :
    ¬ (ofCapsuleProperty name).contains topology := by
  have htable : ∀ rule ∈ propertyTable, ¬ rule.2.contains topology := by decide
  rcases ofCapsuleProperty_cases name with heq | ⟨rule, hrule, -, heq⟩ | heq
  · rw [heq]
    decide
  · rw [heq]
    exact htable rule hrule
  · exact absurd heq h

/-- And the material, besides, where it is about the binding. -/
theorem not_contains_materialId_ofCapsuleProperty (h : ofCapsuleProperty name ≠ all)
    (hbinding : ¬ (NameRule.startingWith CapsuleAdapter.materialProperty).applies name) :
    ¬ (ofCapsuleProperty name).contains materialId := by
  have htable : ∀ rule ∈ propertyTable, rule.2.contains materialId →
      rule.1 = .exactly CapsuleAdapter.materialProperty ∨
        rule.1 = .startingWith CapsuleAdapter.materialProperty := by decide
  rcases ofCapsuleProperty_cases name with heq | ⟨rule, hrule, happlies, heq⟩ | heq
  · rw [heq]
    decide
  · rw [heq]
    intro hmaterial
    rcases htable rule hrule hmaterial with hrule | hrule
    · -- the binding itself begins so, too
      rw [hrule, NameRule.applies_exactly] at happlies
      subst happlies
      exact hbinding (by decide)
    · exact hbinding (hrule ▸ happlies)
  · exact absurd heq h

end DirtyBits

namespace Variability

variable {v : Variability} {stage : Stage} {path : PrimPath}

/-- **Tracking finds the categories by which a capsule may vary**, and no others. -/
theorem contains_trackCapsule_iff {c : DirtyBits} (hc : c.IsCategory) :
    (v.trackCapsule stage path).varying.contains c ↔ v.varying.contains c ∨
      ∃ name, Contributes stage path name c ∧ stage.mayVary path name := by
  rw [(isUnion_trackCapsule v stage path).contains_iff hc]
  refine or_congr Iff.rfl ⟨?_, ?_⟩
  · rintro ⟨d, ⟨name, hname, hvary⟩, hcontains⟩
    obtain rfl := (hc.contains_iff_eq hname.isCategory).1 hcontains
    exact ⟨name, hname, hvary⟩
  · rintro ⟨name, hname, hvary⟩
    exact ⟨c, ⟨name, hname, hvary⟩, DirtyBits.contains_self c⟩

/-- The categories by which a capsule may vary. -/
def categories : List DirtyBits :=
  [.transform, .visibility, .extent, .primvar, .points]

theorem Contributes.mem_categories {name : String} {c : DirtyBits}
    (h : Contributes stage path name c) : c ∈ categories := by
  cases h <;> decide

end Variability

namespace Cell

open Variability

variable {path : PrimPath} {category : DirtyBits}

/-- Whether a category is not on record as varying. -/
def Timeless (category : DirtyBits) (c : Cell) : Prop :=
  ∀ entry, c.1 = some entry → ¬ entry.varying.contains category

/-- Tracking never finds a category by which no capsule varies. -/
theorem not_contains_trackCapsule (hcategory : category.IsCategory) (hnever : category ∉ categories)
    {v : Variability} (h : ¬ v.varying.contains category) (stage : Stage) (path : PrimPath) :
    ¬ (v.trackCapsule stage path).varying.contains category := by
  rw [contains_trackCapsule_iff hcategory]
  rintro (hbefore | ⟨name, hname, -⟩)
  · exact h hbefore
  · exact hnever hname.mem_categories

/-- **A category by which no capsule varies never enters a record.** -/
theorem timeless_invariant (hcategory : category.IsCategory) (hnever : category ∉ categories) :
    Invariant (Timeless category) where
  vacant entry hentry := by cases hentry
  populate σ stage path h := by
    unfold populate
    split
    · exact h
    · intro entry hentry
      cases hentry
      exact not_contains_trackCapsule hcategory hnever (DirtyBits.not_contains_clean hcategory) _ _
  remove h := by
    unfold remove
    split
    · intro entry hentry
      cases hentry
    · exact h
  change {c} stage path name h := by
    obtain ⟨_ | entry, r?⟩ := c
    · exact h
    · intro later hlater
      cases hlater
      exact not_contains_trackCapsule hcategory hnever (h entry rfl) _ _
  touch {c} h := by
    obtain ⟨_ | entry, r?⟩ := c
    · exact h
    · intro later hlater
      cases hlater
      exact h entry rfl
  sync {c} time stage path h := by
    obtain ⟨_ | entry, r?⟩ := c
    · exact h
    · intro later hlater
      cases hlater
      exact h entry rfl

/-- **An output of a category.** It does not change when the consumer is told of something, nor by a
delivery of other categories. -/
structure IsOutput {α : Type} (category : DirtyBits) (output : Rprim → α) : Prop where
  told : ∀ r bits, output { r with dirty := bits } = output r
  deliver : ∀ (entry : Entry) stage path time r, ¬ entry.dirty.contains category →
    output (entry.deliver stage path time r) = output r

/-- The connectivity, with the count of its deliveries. -/
theorem isOutput_topology : IsOutput .topology fun r => (r.topology, r.topologyUpdates) where
  told _ _ := rfl
  deliver entry stage path time r h := by
    rw [Entry.deliver_eq_outputs, if_neg h, if_neg h]
    rfl

theorem isOutput_material : IsOutput .materialId Rprim.material where
  told _ _ := rfl
  deliver entry stage path time r h := by
    rw [Entry.deliver_eq_outputs, if_neg h]

variable {α : Type} {output : Rprim → α} {x : α} {edited : String → Prop}

/-- Whether an output rests: it is as it was, and neither stale nor on record as varying. -/
def Rests (category : DirtyBits) (output : Rprim → α) (x : α) (c : Cell) : Prop :=
  ∃ entry r, c = (some entry, some r) ∧ ¬ entry.dirty.contains category ∧
    ¬ entry.varying.contains category ∧ output r = x

/-- **While a prim lives, an output rests** until an edit makes it stale. -/
theorem lasting_rests (hcategory : category.IsCategory) (hnever : category ∉ categories)
    (houtput : IsOutput category output)
    (hedited : ∀ name, edited name → ¬ (DirtyBits.ofCapsuleProperty name).contains category) :
    Lasting path edited (Rests category output x) where
  change {c} stage name hname := by
    rintro ⟨entry, r, rfl, hdirty, hvarying, rfl⟩
    refine ⟨_, _, rfl, ?_, ?_, houtput.told r _⟩
    · rw [DirtyBits.contains_union_iff hcategory]
      exact not_or.2 ⟨hdirty, hedited name hname⟩
    · exact not_contains_trackCapsule hcategory hnever hvarying stage path
  touch {c} := by
    rintro ⟨entry, r, rfl, hdirty, hvarying, rfl⟩
    refine ⟨_, _, rfl, ?_, hvarying, houtput.told r _⟩
    rw [DirtyBits.contains_union_iff hcategory]
    exact not_or.2 ⟨hdirty, hvarying⟩
  sync {c} time stage := by
    rintro ⟨entry, r, rfl, hdirty, hvarying, rfl⟩
    refine ⟨_, _, rfl, DirtyBits.not_contains_clean hcategory, hvarying, ?_⟩
    exact houtput.deliver entry stage path time r hdirty

/-- And it does so from any sync on. -/
theorem rests_sync (hcategory : category.IsCategory) {entry : Entry} {r : Rprim}
    (htimeless : Timeless category (some entry, some r)) (time : TimeCode) (stage : Stage)
    (path : PrimPath) :
    Rests category output (output (entry.deliver stage path time r))
      (Cell.sync time stage path (some entry, some r)) :=
  ⟨_, _, rfl, DirtyBits.not_contains_clean hcategory, htimeless entry rfl, rfl⟩

end Cell

namespace Imager

variable {registry : Registry} {supported : List String} {caches : CacheBank}

/-- A prim that is populated has an entry and an rprim. -/
theorem exists_cell_eq (operations : List Operation) {path : PrimPath}
    (h : path ∈ ((fresh registry supported caches).run operations).entries) :
    ∃ entry r, ((fresh registry supported caches).run operations).cell path =
      (some entry, some r) := by
  have hcoupled := holds_run Cell.coupled_invariant registry supported caches operations path
  obtain ⟨entry, hentry⟩ := Option.isSome_iff_exists.1 (ExtTreeMap.mem_iff_isSome_getElem?.1 h)
  have hfirst : (((fresh registry supported caches).run operations).cell path).1 = some entry :=
    hentry
  rw [Cell.Coupled, hfirst] at hcoupled
  obtain ⟨r, hr⟩ := Option.isSome_iff_exists.1 hcoupled
  exact ⟨entry, r, Prod.ext hfirst hr⟩

/-- No record has a category by which no capsule varies. -/
theorem timeless_run (operations : List Operation) {category : DirtyBits}
    (hcategory : category.IsCategory) (hnever : category ∉ Variability.categories)
    (path : PrimPath) :
    Cell.Timeless category (((fresh registry supported caches).run operations).cell path) :=
  holds_run (Cell.timeless_invariant hcategory hnever) registry supported caches operations path

/-- **An output by which no capsule varies rests** from when a prim that is populated is synced,
through any calls that spare the prim and tell of no edit that makes the output stale. -/
theorem output_run (operations : List Operation) {α : Type} {output : Rprim → α}
    {category : DirtyBits} (hcategory : category.IsCategory)
    (hnever : category ∉ Variability.categories) (houtput : Cell.IsOutput category output)
    {path : PrimPath} {entry : Entry} {r : Rprim}
    (hcell : ((fresh registry supported caches).run operations).cell path = (some entry, some r))
    (stage : Stage) {edited : String → Prop}
    (hedited : ∀ name, edited name → ¬ (DirtyBits.ofCapsuleProperty name).contains category) :
    let im := (fresh registry supported caches).run operations
    let synced := (im.sync stage).2
    ∀ later : List Operation, (∀ call ∈ later, call.Spares synced.setting path edited) →
      ∃ r', (synced.run later).index.rprims[path]? = some r' ∧
        output r' = output (entry.deliver stage path im.time r) := by
  intro im synced later hspares
  have htimeless : Cell.Timeless category (im.cell path) :=
    timeless_run operations hcategory hnever path
  have hrests : Cell.Rests category output (output (entry.deliver stage path im.time r))
      (synced.cell path) := by
    rw [hcell] at htimeless
    rw [cell_sync, hcell]
    exact Cell.rests_sync hcategory htimeless im.time stage path
  obtain ⟨_, r', hlater, -, -, hsame⟩ :=
    holds_run_of_spares (Cell.lasting_rests hcategory hnever houtput hedited) hrests hspares
  exact ⟨r', congrArg Prod.snd hlater, hsame⟩

/-- **Connectivity and material are not delivered again without cause.** Whatever calls an imager
has had, no record has the connectivity, the sides or the material. And when a prim that is
populated has been synced, then through any calls that spare it and tell of no edit that makes
everything stale, its connectivity stays as it is and is not delivered again; and if none of the
edits is of a property whose name begins like the binding's, its material stays too. -/
theorem outputs_rest (registry : Registry) (supported : List String) (caches : CacheBank)
    (operations : List Operation) :
    let im := (fresh registry supported caches).run operations
    (∀ (path : PrimPath) (entry : Entry), im.entries[path]? = some entry →
      ¬ entry.varying.contains .topology ∧ ¬ entry.varying.contains .doubleSided ∧
        ¬ entry.varying.contains .materialId) ∧
    ∀ (path : PrimPath) (stage : Stage), path ∈ im.entries →
      let synced := (im.sync stage).2
      ∃ r, synced.index.rprims[path]? = some r ∧
        ∀ later : List Operation,
          (∀ call ∈ later, call.Spares synced.setting path
            fun name => DirtyBits.ofCapsuleProperty name ≠ .all) →
          ∃ r', (synced.run later).index.rprims[path]? = some r' ∧
            r'.topology = r.topology ∧ r'.topologyUpdates = r.topologyUpdates ∧
            ((∀ call ∈ later, call.Spares synced.setting path fun name =>
              DirtyBits.ofCapsuleProperty name ≠ .all ∧
                ¬ (NameRule.startingWith CapsuleAdapter.materialProperty).applies name) →
              r'.material = r.material) := by
  intro im
  have htopology : DirtyBits.topology ∉ Variability.categories := by decide
  have hmaterial : DirtyBits.materialId ∉ Variability.categories := by decide
  refine ⟨fun path entry hentry => ⟨?_, ?_, ?_⟩, fun path stage hpath => ?_⟩
  · exact timeless_run operations DirtyBits.isCategory_topology htopology path entry hentry
  · exact timeless_run operations DirtyBits.isCategory_doubleSided (by decide) path entry hentry
  · exact timeless_run operations DirtyBits.isCategory_materialId hmaterial path entry hentry
  intro synced
  obtain ⟨entry, r, hcell⟩ := exists_cell_eq operations hpath
  have hsynced : synced.cell path = Cell.sync im.time stage path (some entry, some r) :=
    cell_sync.trans (congrArg _ hcell)
  refine ⟨entry.deliver stage path im.time r, congrArg Prod.snd hsynced, fun later hspares => ?_⟩
  obtain ⟨r', hr', heq⟩ := output_run operations DirtyBits.isCategory_topology htopology
    Cell.isOutput_topology hcell stage
    (fun _ => DirtyBits.not_contains_topology_ofCapsuleProperty) later hspares
  obtain ⟨hsame, hcount⟩ := Prod.mk.inj heq
  refine ⟨r', hr', hsame, hcount, fun hbinding => ?_⟩
  -- with no edit of the binding the same calls spare the prim for its material, too
  obtain ⟨r'', hr'', hmaterialSame⟩ := output_run operations DirtyBits.isCategory_materialId
    hmaterial Cell.isOutput_material hcell stage
    (fun _ h => DirtyBits.not_contains_materialId_ofCapsuleProperty h.1 h.2) later hbinding
  rw [hr'] at hr''
  cases hr''
  exact hmaterialSame

/-- A capsule with a material, of a height that varies with time. -/
def bound : Stage :=
  Stage.empty.editAll [.define ⟨"/c"⟩ "Capsule",
    .setFallback ⟨"/c"⟩ "material:binding" (.token "/red"),
    .setSample ⟨"/c"⟩ "height" 1 (.double 1), .setSample ⟨"/c"⟩ "height" 2 (.double 3)]

/-- The same capsule with another material. -/
def rebound : Stage :=
  bound.editAll [.setFallback ⟨"/c"⟩ "material:binding" (.token "/blue")]

/-- The first of them, imaged and synced. -/
def delivered : Imager :=
  (((fresh Session.oneType [meshType] .empty).run [.populate bound]).sync bound).2

/-- The capsule moves in time and is edited, but no event tells of its material. -/
def moving : List Operation :=
  [.setTime (.at 2), .sync bound,
    .apply rebound [.changed ⟨"/c"⟩ "height", .changed ⟨"/c"⟩ "xformOp:translate",
      .changed ⟨"/c"⟩ "doubleSided", .defined ⟨"/d"⟩ "Sphere"],
    .setTime .default, .sync rebound]

theorem outputs_rest_moving :
    CapsuleAdapter.material rebound ⟨"/c"⟩ = some ⟨"/blue"⟩ ∧
      ∃ r, (delivered.run moving).index.rprims[PrimPath.mk "/c"]? = some r ∧
        r.topologyUpdates = 1 ∧ r.material = some ⟨"/red"⟩ := by
  obtain ⟨-, hrest⟩ := outputs_rest Session.oneType [meshType] .empty [.populate bound]
  obtain ⟨before, hbefore, hlater⟩ := hrest ⟨"/c"⟩ bound (by decide +kernel)
  obtain ⟨r, hr, -, hcount, hmaterial⟩ := hlater moving (by decide +kernel)
  have hdelivered : (delivered.index.rprims[PrimPath.mk "/c"]?).map
      (fun r => (r.topologyUpdates, r.material)) = some (1, some ⟨"/red"⟩) := by decide +kernel
  rw [delivered, hbefore, Option.map_some, Option.some.injEq, Prod.mk.injEq] at hdelivered
  rw [delivered]
  refine ⟨by decide +kernel, r, hr, hcount.trans hdelivered.1, ?_⟩
  exact (hmaterial (by decide +kernel)).trans hdelivered.2

end Imager

end CapsuleImaging
