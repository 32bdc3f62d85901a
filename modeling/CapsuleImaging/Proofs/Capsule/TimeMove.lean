import CapsuleImaging.Proofs.Capsule.Reading
import CapsuleImaging.Proofs.Change.Tracking
import CapsuleImaging.Proofs.Scene.Moment

/-!
# Parameters at two times

A capsule whose record of variability is without points has the same parameters at all numbers
(`ofPrim_at_eq`). Its parameters by default are another matter: an attribute with a single sample is
not said to vary, and the sample holds at every number but not by default. So they are the same
exactly if each such sample says what the default says, which is `Stage.Steady`
(`ofPrim_default_eq_at_iff`).

A move in time is **covered** by the record if the record has the points or the parameters are the
same before and after.
-/

namespace CapsuleImaging

namespace Stage

/-- What is found to vary when a prim is asked about for the first time. -/
def recorded (stage : Stage) (path : PrimPath) : DirtyBits :=
  (({} : Variability).trackCapsule stage path).varying

/-- **Whether every single sample repeats the default**: the attribute alone gives the same
parameters by either. -/
def Steady (stage : Stage) (path : PrimPath) : Prop :=
  ∀ schema, CapsuleSchema.of? stage path = some schema → ∀ a ∈ schema.shapeAttributes,
    ∀ authored, stage.authored? path a.name = some authored →
      ∀ sample, authored.samples = [sample] →
        a.effect authored.fallback (.defaults {}) = a.effect (some sample.2) (.defaults {})

/-- Whether the record answers for a move in time: the move is within one kind of time, or the
points are known to vary, or there is nothing that the record could miss. -/
def Covered (stage : Stage) (path : PrimPath) (before after : TimeCode) : Prop :=
  before.isDefault = after.isDefault ∨ (stage.recorded path).contains .points ∨ stage.Steady path

end Stage

namespace ShapeParameters

variable {stage : Stage} {path : PrimPath} {t : Tessellation}

/-- What may vary is on record. -/
theorem contains_recorded_iff : (stage.recorded path).contains .points ↔
    ∃ schema, CapsuleSchema.of? stage path = some schema ∧
      ∃ a ∈ schema.shapeAttributes, stage.mayVary path a.name := by
  rw [Stage.recorded, Variability.contains_points_trackCapsule,
    or_iff_right (DirtyBits.not_contains_clean DirtyBits.isCategory_points)]

/-- So without the points on record, no attribute of the shape is said to vary. -/
theorem not_mayVary_of_not_recorded (h : ¬ (stage.recorded path).contains .points)
    {schema : CapsuleSchema} (hschema : CapsuleSchema.of? stage path = some schema)
    {a : ShapeAttribute} (ha : a ∈ schema.shapeAttributes) : ¬ stage.mayVary path a.name := by
  intro hvary
  exact h (contains_recorded_iff.2 ⟨schema, hschema, a, ha, hvary⟩)

/-- An attribute that is not said to vary, at a number. -/
theorem value?_at {name : String} (h : ¬ stage.mayVary path name) (x : Float) :
    stage.value? path name (.at x) =
      (stage.authored? path name).bind fun a => (a.samples.head?.map (·.2)).or a.fallback := by
  rw [Stage.value?]
  cases ha : stage.authored? path name with
  | none => rfl
  | some a =>
    have hvary : ¬ a.mayVary := by
      rw [Stage.mayVary, ha] at h
      exact h
    exact Attribute.resolve_at_of_not_mayVary hvary x

/-- **Without the points on record, all numbers are alike.** -/
theorem ofPrim_at_eq (h : ¬ (stage.recorded path).contains .points) (x y : Float) :
    ofPrim stage path (.at x) t = ofPrim stage path (.at y) t := by
  refine ofPrim_congr rfl fun schema hschema a ha => ?_
  have hvary := not_mayVary_of_not_recorded h hschema ha
  rw [value?_at hvary, value?_at hvary]

/-- The attributes of a schema decide on different parameters, so two readings give the same
parameters exactly if they do so attribute by attribute. -/
theorem foldl_effect_eq_iff (schema : CapsuleSchema) (v w : ShapeAttribute → Option Value) :
    schema.shapeAttributes.foldl (fun p a => a.effect (v a) p) (defaults t) =
        schema.shapeAttributes.foldl (fun p a => a.effect (w a) p) (defaults t) ↔
      ∀ a ∈ schema.shapeAttributes,
        a.effect (v a) (defaults {}) = a.effect (w a) (defaults {}) := by
  cases schema <;>
    simp [CapsuleSchema.shapeAttributes, ShapeAttribute.effect, defaults]

/-- **By default and at a number alike**: exactly if every single sample repeats the default. -/
theorem ofPrim_default_eq_at_iff (h : ¬ (stage.recorded path).contains .points) (x : Float) :
    ofPrim stage path .default t = ofPrim stage path (.at x) t ↔ stage.Steady path := by
  rw [ofPrim_eq, ofPrim_eq, Stage.Steady]
  cases hschema : CapsuleSchema.of? stage path with
  | none => simp
  | some schema =>
    dsimp only
    rw [foldl_effect_eq_iff schema (fun a => stage.value? path a.name .default)
      fun a => stage.value? path a.name (.at x)]
    simp only [Option.some.injEq, forall_eq']
    refine forall₂_congr fun a ha => ?_
    have hvary := not_mayVary_of_not_recorded h hschema ha
    rw [value?_at hvary, Stage.value?]
    cases hauthored : stage.authored? path a.name with
    | none => simp
    | some authored =>
      rw [Stage.mayVary, hauthored] at hvary
      simp only [Option.bind_some, Option.some.injEq, forall_eq', Attribute.resolve]
      -- without a sample the default holds at numbers too
      obtain hnone | ⟨sample, hsingle⟩ := Attribute.samples_of_not_mayVary hvary
      · simp [hnone]
      · simp [hsingle]

/-- **Without the points on record, two times are alike** exactly if they are of one kind or every
single sample repeats the default. -/
theorem ofPrim_eq_iff (h : ¬ (stage.recorded path).contains .points) (before after : TimeCode) :
    ofPrim stage path before t = ofPrim stage path after t ↔
      before.isDefault = after.isDefault ∨ stage.Steady path := by
  cases before with
  | default =>
    cases after with
    | default => simp
    | «at» y =>
      rw [ofPrim_default_eq_at_iff h]
      simp [TimeCode.isDefault]
  | «at» x =>
    cases after with
    | default =>
      rw [eq_comm, ofPrim_default_eq_at_iff h]
      simp [TimeCode.isDefault]
    | «at» y => simp [ofPrim_at_eq h x y, TimeCode.isDefault]

/-- A move that is covered changes no parameters, unless the points are known to vary. -/
theorem ofPrim_eq_of_covered {before after : TimeCode} (h : stage.Covered path before after)
    (hrecord : ¬ (stage.recorded path).contains .points) :
    ofPrim stage path before t = ofPrim stage path after t :=
  (ofPrim_eq_iff hrecord before after).2 (h.imp_right fun h => h.resolve_left hrecord)

end ShapeParameters

end CapsuleImaging
