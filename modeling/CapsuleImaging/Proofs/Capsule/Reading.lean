import CapsuleImaging.Render.Adapter
import Mathlib.Data.List.Basic

/-!
# What a reading depends on

A reading of a prim, of its parameters or of its material, is a chain of lookups that can each fall
short. Here each is brought to what it reads: `Stage.value?`, the value an attribute has at a time,
if any. The parameters are then a fold of `ShapeAttribute.effect` over the attributes of the prim's
schema (`ofPrim_eq`), and two readings agree as soon as those values do (`ofPrim_congr`).
-/

namespace CapsuleImaging

namespace Stage

/-- The value of an attribute at a time, if it has one. -/
def value? (s : Stage) (path : PrimPath) (name : String) (time : TimeCode) : Option Value :=
  (s.authored? path name).bind (·.resolve time)

/-- What is authored alike has the same value. -/
theorem value?_congr {s s' : Stage} {path path' : PrimPath} {name name' : String}
    (h : s.authored? path name = s'.authored? path' name') (time : TimeCode) :
    s.value? path name time = s'.value? path' name' time := by
  rw [value?, h, value?]

variable {s : Stage} {path : PrimPath} {name : String} {time : TimeCode}

theorem toOption_valueAt : (s.valueAt path name time).toOption = s.value? path name time := by
  unfold valueAt value? authored?
  cases s.prims[path]? with
  | none => rfl
  | some prim =>
    simp only [Option.bind_some]
    cases prim.attributes[name]? with
    | none => rfl
    | some a =>
      simp only [Option.bind_some]
      cases a.resolve time <;> rfl

theorem toOption_doubleAt :
    (s.doubleAt path name time).toOption = (s.value? path name time).bind Value.asDouble? := by
  rw [← toOption_valueAt, doubleAt]
  cases s.valueAt path name time with
  | error cause => rfl
  | ok value =>
    dsimp only
    cases h : value.asDouble? <;> simp [Except.toOption, h]

theorem toOption_tokenAt :
    (s.tokenAt path name time).toOption = (s.value? path name time).bind Value.asToken? := by
  rw [← toOption_valueAt, tokenAt]
  cases s.valueAt path name time with
  | error cause => rfl
  | ok value =>
    dsimp only
    cases h : value.asToken? <;> simp [Except.toOption, h]

end Stage

namespace ShapeAttribute

/-- The measure that a value gives: a double, if it is finite. -/
def measure? (value : Option Value) : Option Float :=
  (value.bind Value.asDouble?).filter Float.isFinite

/-- The axis that a value names. -/
def named? (value : Option Value) : Option Axis :=
  (value.bind Value.asToken?).bind Axis.ofToken?

/-- **What an attribute does to the parameters** by its value: one that cannot be used leaves them
as they are. -/
def effect (a : ShapeAttribute) (value : Option Value) (p : ShapeParameters) : ShapeParameters :=
  match a with
  | .height => { p with height := (measure? value).getD p.height }
  | .radius =>
    { p with
      radiusBottom := (measure? value).getD p.radiusBottom
      radiusTop := (measure? value).getD p.radiusTop }
  | .radiusBottom => { p with radiusBottom := (measure? value).getD p.radiusBottom }
  | .radiusTop => { p with radiusTop := (measure? value).getD p.radiusTop }
  | .axis => { p with axis := (named? value).getD p.axis }

variable {s : Stage} {path : PrimPath} {time : TimeCode}

theorem toOption_readMeasure (a : ShapeAttribute) :
    (readMeasure s path time a).toOption = measure? (s.value? path a.name time) := by
  rw [measure?, ← Stage.toOption_doubleAt, readMeasure]
  cases s.doubleAt path a.name time with
  | error cause => rfl
  | ok x =>
    dsimp only
    by_cases h : x.isFinite = true <;> simp [Except.toOption, Option.filter, h]

theorem toOption_readAxis :
    (readAxis s path time).toOption = named? (s.value? path ShapeAttribute.axis.name time) := by
  rw [named?, ← Stage.toOption_tokenAt, readAxis]
  cases s.tokenAt path ShapeAttribute.axis.name time with
  | error cause => rfl
  | ok token =>
    dsimp only
    cases h : Axis.ofToken? token <;> simp [Except.toOption, h]

/-- A reading changes the parameters as the value it finds says. -/
theorem params_take_read (a : ShapeAttribute) (r : Resolution) :
    (r.take (a.read s path time)).params = a.effect (s.value? path a.name time) r.params := by
  have hmeasure : (readMeasure s path time a).toOption = measure? (s.value? path a.name time) :=
    toOption_readMeasure a
  have haxis : (readAxis s path time).toOption = named? (s.value? path axis.name time) :=
    toOption_readAxis
  cases a with
  | axis =>
    rw [effect, ← haxis, read]
    cases readAxis s path time <;> rfl
  | height =>
    rw [effect, ← hmeasure, read]
    cases readMeasure s path time .height <;> rfl
  | radius =>
    rw [effect, ← hmeasure, read]
    cases readMeasure s path time .radius <;> rfl
  | radiusBottom =>
    rw [effect, ← hmeasure, read]
    cases readMeasure s path time .radiusBottom <;> rfl
  | radiusTop =>
    rw [effect, ← hmeasure, read]
    cases readMeasure s path time .radiusTop <;> rfl

end ShapeAttribute

namespace ShapeParameters

variable {s s' : Stage} {path path' : PrimPath} {time time' : TimeCode} {t : Tessellation}

/-- The readings of some attributes, one after another, change the parameters in that order. -/
theorem params_foldl_take (attributes : List ShapeAttribute) (r : Resolution) :
    ((attributes.map (·.read s path time)).foldl Resolution.take r).params =
      attributes.foldl (fun p a => a.effect (s.value? path a.name time) p) r.params := by
  induction attributes generalizing r with
  | nil => rfl
  | cons a rest ih =>
    rw [List.map_cons, List.foldl_cons, List.foldl_cons, ih, ShapeAttribute.params_take_read]

/-- **The parameters of a prim**: the defaults, changed by each attribute of its schema. -/
theorem ofPrim_eq :
    ofPrim s path time t = match CapsuleSchema.of? s path with
      | none => defaults t
      | some schema =>
        schema.shapeAttributes.foldl (fun p a => a.effect (s.value? path a.name time) p)
          (defaults t) := by
  unfold ofPrim resolve
  cases CapsuleSchema.of? s path with
  | none => rfl
  | some schema => exact params_foldl_take schema.shapeAttributes ⟨defaults t, some schema, []⟩

/-- No attribute changes how finely a capsule is built. -/
@[simp]
theorem tessellation_ofPrim : (ofPrim s path time t).tessellation = t := by
  rw [ofPrim_eq]
  cases CapsuleSchema.of? s path with
  | none => rfl
  | some schema => cases schema <;> rfl

/-- **Readings agree where the schema and the values of its attributes do.** -/
theorem ofPrim_congr (hschema : CapsuleSchema.of? s path = CapsuleSchema.of? s' path')
    (hvalue : ∀ schema, CapsuleSchema.of? s path = some schema → ∀ a ∈ schema.shapeAttributes,
      s.value? path a.name time = s'.value? path' a.name time') :
    ofPrim s path time t = ofPrim s' path' time' t := by
  rw [ofPrim_eq, ofPrim_eq, ← hschema]
  cases h : CapsuleSchema.of? s path with
  | none => rfl
  | some schema =>
    refine List.foldl_ext _ _ _ fun p a ha => ?_
    rw [hvalue schema h a ha]

end ShapeParameters

namespace CapsuleSchema

/-- The schema is read off the type. -/
theorem of?_congr {s s' : Stage} {path path' : PrimPath} (h : s.typeOf? path = s'.typeOf? path') :
    of? s path = of? s' path' := by
  simp only [of?, Stage.isA, h]

end CapsuleSchema

namespace CapsuleAdapter

/-- The property a prim's material is read from. -/
def materialProperty : String := "material:binding"

/-- **The material** is read off one value, at no particular time. -/
theorem material_eq {s : Stage} {path : PrimPath} :
    material s path = ((s.value? path materialProperty .default).bind Value.asToken?).bind
      fun target => (PrimPath.parse target).toOption := by
  rw [← Stage.toOption_tokenAt, material, materialProperty]
  cases s.tokenAt path "material:binding" .default <;> rfl

end CapsuleAdapter

end CapsuleImaging
