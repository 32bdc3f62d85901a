import CapsuleImaging.Proofs.Capsule.Reading
import CapsuleImaging.Proofs.Change.Coverage
import CapsuleImaging.Proofs.Scene.History
import CapsuleImaging.Render.DataSource

/-!
# What may be kept of fetched data

Whoever has fetched a piece of a capsule's data may keep it until an edit makes it stale. This is
sound because three tables agree. A piece is read from certain attributes (`CapsuleDatum.sources`)
and otherwise depends on the schema only (`value_ofPrim_congr`); the edit of an attribute makes
every piece stale that is read from it (`intersects_locator_of_source`); and an edit that is not
about an attribute leaves its record as it was. So a piece that is fetched anew and differs was
made stale (`invalidation_sound`).
-/

namespace CapsuleImaging

namespace CapsuleDatum

/-- A piece of data, by the parameters of the capsule. -/
def value (d : CapsuleDatum) (p : ShapeParameters) : DataValue :=
  match d with
  | .height => .double p.height
  | .radiusBottom => .double p.radiusBottom
  | .radiusTop => .double p.radiusTop
  | .axis => .token p.axis.token
  | .topology => .topology p.grid.topology
  | .points => .points p.points

/-- The attributes that a piece is read from, in the one schema or the other. -/
def sources : CapsuleDatum → List ShapeAttribute
  | .height => [.height]
  | .radiusBottom => [.radius, .radiusBottom]
  | .radiusTop => [.radius, .radiusTop]
  | .axis => [.axis]
  | .topology => []
  | .points => ShapeAttribute.all

/-- There is data at the locators of the pieces only. -/
theorem locator_of_at? {l : Locator} {d : CapsuleDatum} (h : at? l = some d) : d.locator = l := by
  have hfound := List.find?_some h
  exact beq_iff_eq.1 hfound

/-- **An edit of what a piece is read from makes the piece stale.** -/
theorem intersects_locator_of_source {d : CapsuleDatum} {a : ShapeAttribute}
    (h : a ∈ d.sources) : (LocatorSet.madeStale a.name).intersects d.locator := by
  have htable : ∀ d ∈ all, ∀ a ∈ d.sources,
      ∃ m ∈ LocatorSet.parametersOf a ++ [.points], m.intersects d.locator := by decide
  have hall : d ∈ all := by cases d <;> decide
  exact LocatorSet.intersects_madeStale_shape a |>.2 (htable d hall a h)

variable {d : CapsuleDatum} {s s' : Stage} {path path' : PrimPath} {time time' : TimeCode}
  {t : Tessellation}

/-- An attribute leaves alone what is not read from it. -/
theorem value_effect_of_notMem {a : ShapeAttribute} (ha : a ∉ d.sources) (v : Option Value)
    (p : ShapeParameters) : d.value (a.effect v p) = d.value p := by
  cases d <;> cases a <;>
    simp_all [sources, value, ShapeAttribute.effect, ShapeAttribute.all, ShapeParameters.grid]

/-- A measure, and the axis, is changed alike by a source that holds the same. -/
theorem value_effect_congr (hd : d ≠ .points) {a : ShapeAttribute} {v v' : Option Value}
    (hvalue : a ∈ d.sources → v = v') {p p' : ShapeParameters} (h : d.value p = d.value p') :
    d.value (a.effect v p) = d.value (a.effect v' p') := by
  by_cases ha : a ∈ d.sources
  · -- a value that is of no use leaves the piece as it was, and it was the same
    rw [hvalue ha]
    cases hmeasure : ShapeAttribute.measure? v' <;> cases hnamed : ShapeAttribute.named? v' <;>
      cases d <;> cases a <;> simp_all [sources, value, ShapeAttribute.effect]
  · rw [value_effect_of_notMem ha, value_effect_of_notMem ha, h]

/-- And so it comes to the same by any attributes, if its sources hold the same. -/
theorem value_foldl_congr (hd : d ≠ .points)
    (hvalue : ∀ a ∈ d.sources, s.value? path a.name time = s'.value? path' a.name time')
    (attributes : List ShapeAttribute) {p p' : ShapeParameters} (h : d.value p = d.value p') :
    d.value (attributes.foldl (fun p a => a.effect (s.value? path a.name time) p) p) =
      d.value (attributes.foldl (fun p a => a.effect (s'.value? path' a.name time') p) p') := by
  induction attributes generalizing p p' with
  | nil => exact h
  | cons a rest ih => exact ih (value_effect_congr hd (hvalue a) h)

/-- **A piece depends on its sources and the schema.** -/
theorem value_ofPrim_congr (d : CapsuleDatum)
    (hschema : CapsuleSchema.of? s path = CapsuleSchema.of? s' path')
    (hvalue : ∀ a ∈ d.sources, s.value? path a.name time = s'.value? path' a.name time') :
    d.value (.ofPrim s path time t) = d.value (.ofPrim s' path' time' t) := by
  by_cases hd : d = .points
  · -- the points are read off all of the parameters
    subst hd
    refine congrArg (value .points) (ShapeParameters.ofPrim_congr hschema fun _ _ a _ => ?_)
    exact hvalue a (by cases a <;> decide)
  · rw [ShapeParameters.ofPrim_eq, ShapeParameters.ofPrim_eq, hschema]
    cases CapsuleSchema.of? s' path' with
    | none => rfl
    | some schema => exact value_foldl_congr hd hvalue schema.shapeAttributes rfl

end CapsuleDatum

namespace CapsuleSource

/-- **What is fetched**, by the parameters of the capsule: the caches have no part in it. -/
theorem get_fst (src : CapsuleSource) (caches : CacheBank) (l : Locator) :
    (src.get caches l).1 = (CapsuleDatum.at? l).map (·.value src.params) := by
  have hfetch : ∀ d, (src.fetch caches d).1 = d.value src.params := by
    intro d
    cases d with
    | topology =>
      have htopology : (src.adapter.topology caches).1 = src.params.grid.topology := by
        rw [CapsuleAdapter.topology, CacheBank.request_fst, ShapeParameters.grid, params,
          ShapeParameters.tessellation_ofPrim]
      exact congrArg DataValue.topology htopology
    | _ => rfl
  unfold get
  cases CapsuleDatum.at? l with
  | none => rfl
  | some d => exact congrArg some (hfetch d)

variable {stage : Stage} {path : PrimPath} {edits : List Edit} {names : List String}

/-- What no edited attribute makes stale is fetched as before. -/
theorem get_editAll (hedits : ∀ e ∈ edits, ∃ name ∈ names, e.attribute? = some (path, name))
    {l : Locator} (hl : ¬ (LocatorSet.invalidatedBy names).intersects l) (time : TimeCode)
    (a : CapsuleAdapter) (caches caches' : CacheBank) :
    (get ⟨stage.editAll edits, path, time, a⟩ caches' l).1 =
      (get ⟨stage, path, time, a⟩ caches l).1 := by
  obtain ⟨events, hrecounted, hevents⟩ := stage.recounted_attributes hedits
  have hquiet : ∀ e ∈ events, ¬ e.Resets path := by
    intro e he
    obtain ⟨name, -, rfl⟩ := hevents e he
    exact StageEvent.resets_changed
  have hschema : CapsuleSchema.of? (stage.editAll edits) path = CapsuleSchema.of? stage path := by
    apply CapsuleSchema.of?_congr
    rw [Stage.typeOf?, hrecounted.type hquiet, Stage.typeOf?]
  rw [get_fst, get_fst]
  cases hd : CapsuleDatum.at? l with
  | none => rfl
  | some d =>
    refine congrArg some (CapsuleDatum.value_ofPrim_congr d hschema fun source hsource => ?_)
    -- an edit of the source would have made the piece stale
    have hname : source.name ∉ names := by
      intro hmem
      have hstale := CapsuleDatum.intersects_locator_of_source hsource
      rw [CapsuleDatum.locator_of_at? hd] at hstale
      exact hl ((LocatorSet.intersects_invalidatedBy names).2 ⟨_, hmem, hstale⟩)
    have hchanged : .changed path source.name ∉ events := by
      intro hmem
      obtain ⟨name, hin, heq⟩ := hevents _ hmem
      cases heq
      exact hname hin
    exact Stage.value?_congr (hrecounted.authored hquiet hchanged) time

/-- **Data that is not invalidated may be kept.** After any edits of a prim's attributes, whatever
is fetched differently than before, in whatever state the caches are, is concerned by the set that
the names of these attributes make stale. And if each of the names is known, the connectivity is
not concerned. -/
theorem invalidation_sound (stage : Stage) (path : PrimPath) (time : TimeCode) (a : CapsuleAdapter)
    (edits : List Edit) (names : List String)
    (hedits : ∀ e ∈ edits, ∃ name ∈ names, e.attribute? = some (path, name)) :
    (∀ (l : Locator) (caches caches' : CacheBank),
      (get ⟨stage.editAll edits, path, time, a⟩ caches' l).1 ≠
          (get ⟨stage, path, time, a⟩ caches l).1 →
        (LocatorSet.invalidatedBy names).intersects l) ∧
    ((∀ name ∈ names, (ShapeAttribute.ofName? name).isSome ∨ DirtyBits.ofProperty name ≠ .all) →
      ¬ (LocatorSet.invalidatedBy names).intersects .topology) := by
  constructor
  · intro l caches caches' hdiffers
    by_contra hl
    exact hdiffers (get_editAll hedits hl time a caches caches')
  · intro hknown htopology
    obtain ⟨name, hname, hl⟩ := (LocatorSet.intersects_invalidatedBy names).1 htopology
    exact LocatorSet.not_intersects_topology (hknown name hname) hl

/-- A capsule of the older schema. -/
def older : Stage :=
  Stage.empty.define ⟨"/c"⟩ "Capsule"

/-- Its radius is set, twice over, and so is whether it is shown. -/
def widening : List Edit :=
  [.setFallback ⟨"/c"⟩ "radius" (.double 1), .setFallback ⟨"/c"⟩ "visibility" (.token "invisible"),
    .setFallback ⟨"/c"⟩ "radius" (.double 2)]

theorem invalidation_sound_radius :
    (LocatorSet.invalidatedBy ["visibility", "radius", "radius"]).intersects
        (.capsule "radiusTop") ∧
      ¬ (LocatorSet.invalidatedBy ["visibility", "radius", "radius"]).intersects .topology := by
  have hedits : ∀ e ∈ widening, ∃ name ∈ ["visibility", "radius", "radius"],
      e.attribute? = some (⟨"/c"⟩, name) := by decide
  have hsound := invalidation_sound older ⟨"/c"⟩ .default ⟨{}, 0⟩ widening
    ["visibility", "radius", "radius"] hedits
  exact ⟨hsound.1 (.capsule "radiusTop") .empty .empty (by decide +kernel),
    hsound.2 (by decide +kernel)⟩

end CapsuleSource

end CapsuleImaging
