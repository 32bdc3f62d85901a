import CapsuleImaging.Proofs.Capsule.Reading
import CapsuleImaging.Proofs.Scene.Edit

/-!
# The two versions of the schema

A prim of the older version has one radius where one of the newer has two. If it is authored like
a prim of the newer version, with its radius in place of both (`Stage.Counterparts`), the two are
the same capsule: a radius that can be used sets both ends, and one that cannot leaves both at
their defaults, just as each end would be left by itself. What falls short may be reported once for
the one prim and twice for the other; the parameters do not show it.
-/

namespace CapsuleImaging

namespace CapsuleSchema

/-- A prim follows the schema that its type names. -/
theorem of?_eq_some_iff {stage : Stage} {path : PrimPath} {schema : CapsuleSchema} :
    of? stage path = some schema ↔ stage.isA path schema.typeName := by
  have hdistinct : CapsuleSchema.dualRadius.typeName ≠ CapsuleSchema.singleRadius.typeName := by
    decide
  simp only [of?, all, Stage.isA, beq_iff_eq]
  cases hdual : stage.typeOf? path == some CapsuleSchema.dualRadius.typeName with
  | true =>
    have htype := beq_iff_eq.1 hdual
    cases schema <;> simp [htype, hdistinct]
  | false =>
    have htype : stage.typeOf? path ≠ some CapsuleSchema.dualRadius.typeName := by
      simpa using hdual
    cases schema <;> simp [htype]

end CapsuleSchema

/-- The older radius does what the radii of both ends do. -/
theorem ShapeAttribute.effect_radius (value : Option Value) (p : ShapeParameters) :
    effect .radius value p = effect .radiusTop value (effect .radiusBottom value p) := rfl

/-- **Two prims that are authored alike**, the one by the older version of the schema and the other
by the newer. What is authored may be nothing, or of no use. -/
structure Stage.Counterparts (stage : Stage) (older newer : PrimPath) : Prop where
  typeOlder : stage.isA older CapsuleSchema.singleRadius.typeName
  typeNewer : stage.isA newer CapsuleSchema.dualRadius.typeName
  height : stage.authored? older ShapeAttribute.height.name =
    stage.authored? newer ShapeAttribute.height.name
  radiusBottom : stage.authored? older ShapeAttribute.radius.name =
    stage.authored? newer ShapeAttribute.radiusBottom.name
  radiusTop : stage.authored? older ShapeAttribute.radius.name =
    stage.authored? newer ShapeAttribute.radiusTop.name
  axis : stage.authored? older ShapeAttribute.axis.name =
    stage.authored? newer ShapeAttribute.axis.name

namespace Stage

variable {stage : Stage} {older newer : PrimPath}

/-- **Counterparts have the same parameters** at all times. -/
theorem Counterparts.ofPrim_eq (h : stage.Counterparts older newer) (time : TimeCode)
    (t : Tessellation) :
    ShapeParameters.ofPrim stage older time t = ShapeParameters.ofPrim stage newer time t := by
  have hheight := value?_congr h.height time
  have haxis := value?_congr h.axis time
  -- the reading of the one radius stands for the readings of both
  have hradii : ∀ p : ShapeParameters,
      ShapeAttribute.effect .radius (stage.value? older ShapeAttribute.radius.name time) p =
        ShapeAttribute.effect .radiusTop (stage.value? newer ShapeAttribute.radiusTop.name time)
          (ShapeAttribute.effect .radiusBottom
            (stage.value? newer ShapeAttribute.radiusBottom.name time) p) := by
    intro p
    rw [← value?_congr h.radiusBottom, ← value?_congr h.radiusTop, ShapeAttribute.effect_radius]
  rw [ShapeParameters.ofPrim_eq, ShapeParameters.ofPrim_eq,
    CapsuleSchema.of?_eq_some_iff.2 h.typeOlder, CapsuleSchema.of?_eq_some_iff.2 h.typeNewer]
  simp only [CapsuleSchema.shapeAttributes, List.foldl_cons, List.foldl_nil]
  rw [hradii, hheight, haxis]

/-- **The versions of the schema agree.** Prims that are authored alike have the same parameters at
every time and however finely they are built, and so one adapter images them alike. -/
theorem versions_agree (h : stage.Counterparts older newer) (time : TimeCode) :
    (∀ t : Tessellation, (ShapeParameters.resolve stage older time t).params =
      (ShapeParameters.resolve stage newer time t).params) ∧
    ∀ a : CapsuleAdapter, a.points stage older time = a.points stage newer time ∧
      ∀ caches caches' : CacheBank, (a.topology caches).1 = (a.topology caches').1 := by
  refine ⟨h.ofPrim_eq time, fun a => ⟨?_, fun caches caches' => ?_⟩⟩
  · exact congrArg ShapeParameters.points (h.ofPrim_eq time a.tessellation)
  · rw [CapsuleAdapter.topology, CapsuleAdapter.topology, CacheBank.request_fst,
      CacheBank.request_fst]

/-- Two capsules, each of one version, with a height that varies, radii that are no numbers and an
axis that is none. -/
def flawedPair : Stage :=
  [.define ⟨"/old"⟩ "Capsule", .define ⟨"/new"⟩ "Capsule_1",
    .setSample ⟨"/old"⟩ "height" 0 (.double 1), .setSample ⟨"/new"⟩ "height" 0 (.double 1),
    .setSample ⟨"/old"⟩ "height" 10 (.double 3), .setSample ⟨"/new"⟩ "height" 10 (.double 3),
    .setFallback ⟨"/old"⟩ "radius" (.token "wide"),
    .setFallback ⟨"/new"⟩ "radiusBottom" (.token "wide"),
    .setFallback ⟨"/new"⟩ "radiusTop" (.token "wide"),
    .setFallback ⟨"/old"⟩ "axis" (.token "W"),
    .setFallback ⟨"/new"⟩ "axis" (.token "W")].foldl Stage.edit .empty

/-- The one prim falls short in two ways and the other in three, but they are the same capsule. -/
theorem versions_agree_flawed :
    (ShapeParameters.resolve flawedPair ⟨"/old"⟩ (.at 5) {}).shortfalls.length = 2 ∧
      (ShapeParameters.resolve flawedPair ⟨"/new"⟩ (.at 5) {}).shortfalls.length = 3 ∧
      (ShapeParameters.resolve flawedPair ⟨"/old"⟩ (.at 5) {}).params =
        (ShapeParameters.resolve flawedPair ⟨"/new"⟩ (.at 5) {}).params ∧
      CapsuleAdapter.points ⟨{}, 0⟩ flawedPair ⟨"/old"⟩ (.at 5) =
        CapsuleAdapter.points ⟨{}, 0⟩ flawedPair ⟨"/new"⟩ (.at 5) := by
  have h : flawedPair.Counterparts ⟨"/old"⟩ ⟨"/new"⟩ := by
    constructor <;> decide +kernel
  obtain ⟨hparams, hpoints⟩ := versions_agree h (.at 5)
  exact ⟨by decide +kernel, by decide +kernel, hparams {}, (hpoints ⟨{}, 0⟩).1⟩

end Stage

end CapsuleImaging
