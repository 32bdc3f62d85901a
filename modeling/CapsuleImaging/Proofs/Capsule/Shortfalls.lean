import CapsuleImaging.Proofs.Capsule.Versions
import Mathlib.Data.List.Nodup
import Mathlib.Data.Option.Basic

/-!
# What falls short

Each field of a capsule's parameters is fed by one attribute of its schema. An attribute whose value
can be used gives it to the fields it feeds (`ShapeAttribute.gives?`); one that cannot be used falls
short in one of a few ways (`ShapeAttribute.FallsShort`) and leaves its fields at their defaults. So
the parameters and the report of a prim are both read off its attributes one by one
(`Resolution.ReadsOff`), and an attribute shows in its own fields and in its own shortfall only.
-/

namespace CapsuleImaging

/-- A parameter that a prim can set. -/
inductive ShapeField where
  | height
  | radiusBottom
  | radiusTop
  | axis
deriving DecidableEq, Repr

/-- What a field holds. -/
inductive ShapeDatum where
  | measure (x : Float)
  | axis (named : Axis)
deriving DecidableEq, Repr

/-- What is held in a field. -/
def ShapeParameters.field (p : ShapeParameters) : ShapeField → ShapeDatum
  | .height => .measure p.height
  | .radiusBottom => .measure p.radiusBottom
  | .radiusTop => .measure p.radiusTop
  | .axis => .axis p.axis

/-- The attribute that feeds a field. The one radius of the older schema feeds those of both ends. -/
def CapsuleSchema.source : CapsuleSchema → ShapeField → ShapeAttribute
  | _, .height => .height
  | .dualRadius, .radiusBottom => .radiusBottom
  | .dualRadius, .radiusTop => .radiusTop
  | .singleRadius, .radiusBottom => .radius
  | .singleRadius, .radiusTop => .radius
  | _, .axis => .axis

theorem CapsuleSchema.source_mem (schema : CapsuleSchema) (field : ShapeField) :
    schema.source field ∈ schema.shapeAttributes := by
  cases schema <;> cases field <;> decide

/-- The attribute that a shortfall is about, unless it is about the prim as a whole. -/
def Shortfall.source? : Shortfall → Option ShapeAttribute
  | .unavailable _ source _ => some source
  | .unknownSchema _ => none
  | .nonFinite _ source _ => some source
  | .invalidAxis _ _ => some .axis

/-- A value reads as a double if it is a number. -/
theorem Value.asDouble?_eq_none_iff {value : Value} :
    value.asDouble? = none ↔ value.kind ≠ .double ∧ value.kind ≠ .int := by
  cases value <;> simp [asDouble?, kind]

/-- And as a token if it is one. -/
theorem Value.asToken?_eq_none_iff {value : Value} :
    value.asToken? = none ↔ value.kind ≠ .token := by
  cases value <;> simp [asToken?, kind]

/-- The tokens of the axes. -/
theorem Axis.ofToken?_eq_none_iff {token : String} :
    ofToken? token = none ↔ token ∉ ["X", "Y", "Z"] := by
  simp only [ofToken?, all, List.find?_eq_none, Axis.token, beq_iff_eq,
    List.mem_cons, not_or, @eq_comm _ token]
  simp

namespace Stage

variable {stage : Stage} {path : PrimPath} {name : String} {time : TimeCode} {cause : StageError}

/-- A prim with a type is there, so its values are read off what is authored. -/
theorem valueAt_of_typed (hprim : (stage.typeOf? path).isSome) :
    stage.valueAt path name time = match stage.authored? path name with
      | none => .error (.attributeNotFound path name)
      | some a => match a.resolve time with
        | none => .error (.noValue path name time)
        | some value => .ok value := by
  unfold typeOf? at hprim
  unfold valueAt authored?
  cases hrecord : stage.prims[path]? with
  | none => simp [hrecord] at hprim
  | some prim => rfl

theorem valueAt_eq_error_iff (hprim : (stage.typeOf? path).isSome) :
    stage.valueAt path name time = .error cause ↔
      (stage.authored? path name = none ∧ cause = .attributeNotFound path name) ∨
        ∃ a, stage.authored? path name = some a ∧ a.resolve time = none ∧
          cause = .noValue path name time := by
  rw [valueAt_of_typed hprim]
  cases stage.authored? path name with
  | none => simp [eq_comm]
  | some a => cases h : a.resolve time <;> simp [h, eq_comm]

theorem doubleAt_eq_error_iff :
    stage.doubleAt path name time = .error cause ↔
      stage.valueAt path name time = .error cause ∨
        ∃ value, stage.value? path name time = some value ∧ value.asDouble? = none ∧
          cause = .typeMismatch path name .double value.kind := by
  rw [← toOption_valueAt, doubleAt]
  cases stage.valueAt path name time with
  | error e => simp [Except.toOption]
  | ok value => cases h : value.asDouble? <;> simp [Except.toOption, h, eq_comm]

theorem doubleAt_eq_ok_iff {x : Float} :
    stage.doubleAt path name time = .ok x ↔
      ∃ value, stage.value? path name time = some value ∧ value.asDouble? = some x := by
  rw [← toOption_valueAt, doubleAt]
  cases stage.valueAt path name time with
  | error e => simp [Except.toOption]
  | ok value => cases h : value.asDouble? <;> simp [Except.toOption, h]

theorem tokenAt_eq_error_iff :
    stage.tokenAt path name time = .error cause ↔
      stage.valueAt path name time = .error cause ∨
        ∃ value, stage.value? path name time = some value ∧ value.asToken? = none ∧
          cause = .typeMismatch path name .token value.kind := by
  rw [← toOption_valueAt, tokenAt]
  cases stage.valueAt path name time with
  | error e => simp [Except.toOption]
  | ok value => cases h : value.asToken? <;> simp [Except.toOption, h, eq_comm]

theorem tokenAt_eq_ok_iff {token : String} :
    stage.tokenAt path name time = .ok token ↔
      stage.value? path name time = some (.token token) := by
  rw [← toOption_valueAt, tokenAt]
  cases stage.valueAt path name time with
  | error e => simp [Except.toOption]
  | ok value => cases value <;> simp [Except.toOption, Value.asToken?]

end Stage

namespace ShapeAttribute

variable {stage stage' : Stage} {path : PrimPath} {time : TimeCode} {a : ShapeAttribute}
  {s : Shortfall}

/-- **What an attribute gives** to the fields it feeds, if its value can be used. -/
def gives? (stage : Stage) (path : PrimPath) (time : TimeCode) (a : ShapeAttribute) :
    Option ShapeDatum :=
  match a with
  | .axis => (named? (stage.value? path a.name time)).map .axis
  | _ => (measure? (stage.value? path a.name time)).map .measure

/-- **How an attribute falls short** of a value that can be used, and what is reported. -/
inductive FallsShort (stage : Stage) (path : PrimPath) (time : TimeCode) :
    ShapeAttribute → Shortfall → Prop
  /-- It is not authored. -/
  | unauthored {a : ShapeAttribute} (h : stage.authored? path a.name = none) :
      FallsShort stage path time a (.unavailable path a (.attributeNotFound path a.name))
  /-- It has no value at that time. -/
  | valueless {a : ShapeAttribute} {authored : Attribute}
      (h : stage.authored? path a.name = some authored) (hnone : authored.resolve time = none) :
      FallsShort stage path time a (.unavailable path a (.noValue path a.name time))
  /-- A measure has a value that is no number. -/
  | notNumber {a : ShapeAttribute} {value : Value} (ha : a ≠ .axis)
      (h : stage.value? path a.name time = some value)
      (hkind : value.kind ≠ .double ∧ value.kind ≠ .int) :
      FallsShort stage path time a
        (.unavailable path a (.typeMismatch path a.name .double value.kind))
  /-- The axis has a value that is no token. -/
  | notToken {value : Value} (h : stage.value? path ShapeAttribute.axis.name time = some value)
      (hkind : value.kind ≠ .token) :
      FallsShort stage path time .axis
        (.unavailable path .axis (.typeMismatch path ShapeAttribute.axis.name .token value.kind))
  /-- A measure has a number that is not finite. -/
  | nonFinite {a : ShapeAttribute} {value : Value} {x : Float} (ha : a ≠ .axis)
      (h : stage.value? path a.name time = some value) (hx : value.asDouble? = some x)
      (hfinite : ¬ x.isFinite) :
      FallsShort stage path time a (.nonFinite path a x)
  /-- The axis has a token that names none. -/
  | noAxis {token : String}
      (h : stage.value? path ShapeAttribute.axis.name time = some (.token token))
      (hnone : token ∉ ["X", "Y", "Z"]) :
      FallsShort stage path time .axis (.invalidAxis path token)

/-- A shortfall is about the attribute that falls short. -/
theorem FallsShort.source?_eq (h : FallsShort stage path time a s) : s.source? = some a := by
  cases h <;> rfl

/-! ## Reading one attribute -/

theorem gives?_congr (h : stage'.authored? path a.name = stage.authored? path a.name) :
    gives? stage' path time a = gives? stage path time a := by
  unfold gives?
  rw [Stage.value?_congr h]

/-- A reading is seen from what is authored for the attribute. -/
theorem read_congr (hprim : (stage.typeOf? path).isSome)
    (htype : stage'.typeOf? path = stage.typeOf? path)
    (h : stage'.authored? path a.name = stage.authored? path a.name) :
    a.read stage' path time = a.read stage path time := by
  have hvalue : stage'.valueAt path a.name time = stage.valueAt path a.name time := by
    rw [Stage.valueAt_of_typed hprim, Stage.valueAt_of_typed (htype ▸ hprim), h]
  cases a <;> simp only [read, readMeasure, readAxis, Stage.doubleAt, Stage.tokenAt, hvalue]

/-- A measure that an attribute gives is finite. -/
theorem isFinite_of_gives? {x : Float} (h : gives? stage path time a = some (.measure x)) :
    x.isFinite := by
  have hmeasure : ∀ value : Option Value,
      (measure? value).map ShapeDatum.measure = some (.measure x) → x.isFinite := by
    intro value hx
    obtain ⟨y, hy, heq⟩ := Option.map_eq_some_iff.1 hx
    cases heq
    exact (Option.filter_eq_some_iff.1 hy).2
  cases a with
  | axis =>
    obtain ⟨_, -, heq⟩ := Option.map_eq_some_iff.1 h
    cases heq
  | _ => exact hmeasure _ h

/-- What was thrown, if anything was. -/
def thrown? {ε α : Type} : Except ε α → Option ε
  | .ok _ => none
  | .error e => some e

theorem thrown?_map {ε α β : Type} (e : Except ε α) (f : α → β) :
    thrown? (e.map f) = thrown? e := by
  cases e <;> rfl

theorem isSome_thrown? {ε α : Type} (e : Except ε α) :
    (thrown? e).isSome ↔ e.toOption = none := by
  cases e <;> simp [thrown?, Except.toOption]

/-- What is reported of an attribute, if it falls short. -/
def shortfall? (stage : Stage) (path : PrimPath) (time : TimeCode) (a : ShapeAttribute) :
    Option Shortfall :=
  thrown? (a.read stage path time)

theorem shortfall?_axis : shortfall? stage path time .axis = thrown? (readAxis stage path time) :=
  thrown?_map _ _

theorem shortfall?_measure (ha : a ≠ .axis) :
    shortfall? stage path time a = thrown? (readMeasure stage path time a) := by
  cases a with
  | axis => exact absurd rfl ha
  | _ => exact thrown?_map _ _

theorem gives?_measure (ha : a ≠ .axis) :
    gives? stage path time a = (measure? (stage.value? path a.name time)).map .measure := by
  cases a with
  | axis => exact absurd rfl ha
  | _ => rfl

/-- **An attribute that gives nothing is reported**, and no other. -/
theorem isSome_shortfall?_iff :
    (shortfall? stage path time a).isSome ↔ gives? stage path time a = none := by
  by_cases ha : a = .axis
  · subst ha
    rw [shortfall?_axis, isSome_thrown?, toOption_readAxis, gives?, Option.map_eq_none_iff]
  · rw [shortfall?_measure ha, isSome_thrown?, toOption_readMeasure, gives?_measure ha,
      Option.map_eq_none_iff]

/-- Without a value an attribute falls short of one. -/
theorem shortfall?_of_error {cause : StageError}
    (h : stage.valueAt path a.name time = .error cause) :
    shortfall? stage path time a = some (.unavailable path a cause) := by
  by_cases ha : a = .axis
  · subst ha
    simp only [shortfall?_axis, readAxis, Stage.tokenAt, h, thrown?]
  · simp only [shortfall?_measure ha, readMeasure, Stage.doubleAt, h, thrown?]

/-- A measure cannot be used if it is no double, or one that is not finite. -/
theorem shortfall?_measure_eq_some_iff (ha : a ≠ .axis) :
    shortfall? stage path time a = some s ↔
      (∃ cause, stage.doubleAt path a.name time = .error cause ∧ s = .unavailable path a cause) ∨
        ∃ x, stage.doubleAt path a.name time = .ok x ∧ ¬ x.isFinite ∧ s = .nonFinite path a x := by
  rw [shortfall?_measure ha, readMeasure]
  cases stage.doubleAt path a.name time with
  | error cause => simp [thrown?, @eq_comm _ s]
  | ok x => by_cases hfinite : x.isFinite <;> simp [thrown?, hfinite, @eq_comm _ s]

/-- The axis cannot be used if it is no token, or one that names no axis. -/
theorem shortfall?_axis_eq_some_iff :
    shortfall? stage path time .axis = some s ↔
      (∃ cause, stage.tokenAt path ShapeAttribute.axis.name time = .error cause ∧
        s = .unavailable path .axis cause) ∨
      ∃ token, stage.tokenAt path ShapeAttribute.axis.name time = .ok token ∧
        Axis.ofToken? token = none ∧ s = .invalidAxis path token := by
  rw [shortfall?_axis, readAxis]
  cases stage.tokenAt path ShapeAttribute.axis.name time with
  | error cause => simp [thrown?, @eq_comm _ s]
  | ok token => cases h : Axis.ofToken? token <;> simp [thrown?, h, @eq_comm _ s]

/-- Without a value an attribute falls short, in one of two ways. -/
theorem fallsShort_of_error (hprim : (stage.typeOf? path).isSome) {cause : StageError}
    (h : stage.valueAt path a.name time = .error cause) :
    FallsShort stage path time a (.unavailable path a cause) := by
  rcases (Stage.valueAt_eq_error_iff hprim).1 h with ⟨hnone, rfl⟩ | ⟨_, hsome, hnone, rfl⟩
  · exact .unauthored hnone
  · exact .valueless hsome hnone

/-- **What is reported is how the attribute falls short.** -/
theorem shortfall?_eq_some_iff (hprim : (stage.typeOf? path).isSome) :
    shortfall? stage path time a = some s ↔ FallsShort stage path time a s := by
  constructor
  · -- the axis is read as a token and every measure as a double, else they are read alike
    intro h
    by_cases ha : a = .axis
    · subst ha
      rcases shortfall?_axis_eq_some_iff.1 h with ⟨cause, hcause, rfl⟩ | ⟨token, htoken, hnone, rfl⟩
      · rcases Stage.tokenAt_eq_error_iff.1 hcause with hvalue | ⟨value, hvalue, hkind, rfl⟩
        · exact fallsShort_of_error hprim hvalue
        · exact .notToken hvalue (Value.asToken?_eq_none_iff.1 hkind)
      · exact .noAxis (Stage.tokenAt_eq_ok_iff.1 htoken) (Axis.ofToken?_eq_none_iff.1 hnone)
    · rcases (shortfall?_measure_eq_some_iff ha).1 h with
        ⟨cause, hcause, rfl⟩ | ⟨x, hx, hfinite, rfl⟩
      · rcases Stage.doubleAt_eq_error_iff.1 hcause with hvalue | ⟨value, hvalue, hkind, rfl⟩
        · exact fallsShort_of_error hprim hvalue
        · exact .notNumber ha hvalue (Value.asDouble?_eq_none_iff.1 hkind)
      · obtain ⟨value, hvalue, hdouble⟩ := Stage.doubleAt_eq_ok_iff.1 hx
        exact .nonFinite ha hvalue hdouble hfinite
  · intro h
    cases h with
    | unauthored h =>
      exact shortfall?_of_error ((Stage.valueAt_eq_error_iff hprim).2 (.inl ⟨h, rfl⟩))
    | valueless h hnone =>
      exact shortfall?_of_error ((Stage.valueAt_eq_error_iff hprim).2 (.inr ⟨_, h, hnone, rfl⟩))
    | notNumber ha h hkind =>
      have hdouble := Value.asDouble?_eq_none_iff.2 hkind
      have hcause := Stage.doubleAt_eq_error_iff.2 (.inr ⟨_, h, hdouble, rfl⟩)
      exact (shortfall?_measure_eq_some_iff ha).2 (.inl ⟨_, hcause, rfl⟩)
    | notToken h hkind =>
      have htoken := Value.asToken?_eq_none_iff.2 hkind
      have hcause := Stage.tokenAt_eq_error_iff.2 (.inr ⟨_, h, htoken, rfl⟩)
      exact shortfall?_axis_eq_some_iff.2 (.inl ⟨_, hcause, rfl⟩)
    | nonFinite ha h hdouble hfinite =>
      have hx := Stage.doubleAt_eq_ok_iff.2 ⟨_, h, hdouble⟩
      exact (shortfall?_measure_eq_some_iff ha).2 (.inr ⟨_, hx, hfinite, rfl⟩)
    | noAxis h hnone =>
      have htoken := Stage.tokenAt_eq_ok_iff.2 h
      have hnamed := Axis.ofToken?_eq_none_iff.2 hnone
      exact shortfall?_axis_eq_some_iff.2 (.inr ⟨_, htoken, hnamed, rfl⟩)

/-- What is reported of an attribute is about it. -/
theorem filter_shortfall? (hprim : (stage.typeOf? path).isSome) :
    (shortfall? stage path time a).filter (fun s => s.source? ≠ some a) = none := by
  refine Option.filter_eq_none_iff.2 fun s hs => ?_
  have hsource : s.source? = some a := ((shortfall?_eq_some_iff hprim).1 hs).source?_eq
  simp [hsource]

end ShapeAttribute

/-- A prim that follows a schema has a type. -/
theorem CapsuleSchema.isSome_typeOf? {stage : Stage} {path : PrimPath} {schema : CapsuleSchema}
    (h : of? stage path = some schema) : (stage.typeOf? path).isSome :=
  Option.isSome_of_eq_some (beq_iff_eq.1 (of?_eq_some_iff.1 h))

/-- The attributes of a schema that a prim cannot use. -/
def CapsuleSchema.unusable (stage : Stage) (path : PrimPath) (time : TimeCode)
    (schema : CapsuleSchema) : List ShapeAttribute :=
  schema.shapeAttributes.filter fun a => (a.gives? stage path time).isNone

namespace Resolution

variable {stage stage' : Stage} {path : PrimPath} {time : TimeCode} {t : Tessellation}
  {schema : CapsuleSchema}

/-- **A resolution that is read off attribute by attribute**, by a schema. -/
structure ReadsOff (stage : Stage) (path : PrimPath) (time : TimeCode) (t : Tessellation)
    (schema : CapsuleSchema) (r : Resolution) : Prop where
  schema_eq : r.schema = some schema
  tessellation_eq : r.params.tessellation = t
  /-- A field holds what its attribute gives, or else its default. -/
  field_eq : ∀ field : ShapeField, r.params.field field =
    ((schema.source field).gives? stage path time).getD ((ShapeParameters.defaults t).field field)
  /-- Each attribute that cannot be used is reported, in order, with how it falls short. -/
  report : List.Forall₂ (ShapeAttribute.FallsShort stage path time)
    (schema.unusable stage path time) r.shortfalls

theorem schema_foldl_take (attributes : List ShapeAttribute) (r : Resolution) :
    ((attributes.map (·.read stage path time)).foldl take r).schema = r.schema := by
  induction attributes generalizing r with
  | nil => rfl
  | cons a rest ih =>
    rw [List.map_cons, List.foldl_cons, ih]
    cases a.read stage path time <;> rfl

/-- The readings of some attributes are reported in that order. -/
theorem shortfalls_foldl_take (attributes : List ShapeAttribute) (r : Resolution) :
    ((attributes.map (·.read stage path time)).foldl take r).shortfalls =
      r.shortfalls ++ attributes.filterMap (·.shortfall? stage path time) := by
  induction attributes generalizing r with
  | nil => exact (List.append_nil _).symm
  | cons a rest ih =>
    rw [List.map_cons, List.foldl_cons, ih, List.filterMap_cons, ShapeAttribute.shortfall?]
    cases a.read stage path time with
    | ok change => rfl
    | error s => exact List.append_assoc _ _ _

/-- The report of a prim that follows a schema. -/
theorem shortfalls_resolve (hschema : CapsuleSchema.of? stage path = some schema) :
    (ShapeParameters.resolve stage path time t).shortfalls =
      schema.shapeAttributes.filterMap (·.shortfall? stage path time) := by
  unfold ShapeParameters.resolve
  rw [hschema]
  exact shortfalls_foldl_take _ _

/-- What is reported of some attributes stands against those that cannot be used. -/
theorem forall₂_shortfall? (hprim : (stage.typeOf? path).isSome)
    (attributes : List ShapeAttribute) :
    List.Forall₂ (ShapeAttribute.FallsShort stage path time)
      (attributes.filter fun a => (a.gives? stage path time).isNone)
      (attributes.filterMap (·.shortfall? stage path time)) := by
  induction attributes with
  | nil => exact .nil
  | cons a rest ih =>
    by_cases hgives : a.gives? stage path time = none
    · obtain ⟨s, hs⟩ := Option.isSome_iff_exists.1 (ShapeAttribute.isSome_shortfall?_iff.2 hgives)
      rw [List.filter_cons_of_pos (by simpa using hgives), List.filterMap_cons_some hs]
      exact .cons ((ShapeAttribute.shortfall?_eq_some_iff hprim).1 hs) ih
    · have hs : a.shortfall? stage path time = none :=
        Option.not_isSome_iff_eq_none.1 (mt ShapeAttribute.isSome_shortfall?_iff.1 hgives)
      rw [List.filter_cons_of_neg (by simpa using hgives), List.filterMap_cons_none hs]
      exact ih

/-- **A prim that follows a schema is read off attribute by attribute.** -/
theorem readsOff_resolve (hschema : CapsuleSchema.of? stage path = some schema) :
    ReadsOff stage path time t schema (ShapeParameters.resolve stage path time t) where
  schema_eq := by
    unfold ShapeParameters.resolve
    rw [hschema]
    exact schema_foldl_take _ _
  tessellation_eq := ShapeParameters.tessellation_ofPrim
  field_eq field := by
    have hparams : (ShapeParameters.resolve stage path time t).params = _ :=
      ShapeParameters.ofPrim_eq
    rw [hparams, hschema]
    -- no attribute is read after another that feeds the same field
    cases schema <;> cases field <;> exact (Option.getD_map _ _ _).symm
  report := by
    rw [shortfalls_resolve hschema]
    exact forall₂_shortfall? (CapsuleSchema.isSome_typeOf? hschema) _

/-- A measure that is given or is the default is finite. -/
theorem ReadsOff.isFinite {r : Resolution} (h : ReadsOff stage path time t schema r)
    {field : ShapeField} {x : Float} (hx : r.params.field field = .measure x) : x.isFinite := by
  rw [h.field_eq field] at hx
  cases hgives : (schema.source field).gives? stage path time with
  | some d =>
    rw [hgives, Option.getD_some] at hx
    exact ShapeAttribute.isFinite_of_gives? (hgives.trans (congrArg some hx))
  | none =>
    rw [hgives, Option.getD_none] at hx
    have hdefault : ({} : CapsuleShape).height.isFinite ∧
        ({} : CapsuleShape).radiusBottom.isFinite ∧ ({} : CapsuleShape).radiusTop.isFinite := by
      decide +kernel
    cases field <;> cases hx
    · exact hdefault.1
    · exact hdefault.2.1
    · exact hdefault.2.2

theorem ReadsOff.isFinite_params {r : Resolution} (h : ReadsOff stage path time t schema r) :
    r.params.height.isFinite ∧ r.params.radiusBottom.isFinite ∧ r.params.radiusTop.isFinite := by
  have hheight : r.params.field .height = .measure r.params.height := rfl
  have hbottom : r.params.field .radiusBottom = .measure r.params.radiusBottom := rfl
  have htop : r.params.field .radiusTop = .measure r.params.radiusTop := rfl
  exact ⟨h.isFinite hheight, h.isFinite hbottom, h.isFinite htop⟩

/-- The shortfalls of a report are about the attributes they stand against. -/
theorem map_source?_eq {attributes : List ShapeAttribute} {shortfalls : List Shortfall}
    (h : List.Forall₂ (ShapeAttribute.FallsShort stage path time) attributes shortfalls) :
    shortfalls.map Shortfall.source? = attributes.map some := by
  induction h with
  | nil => rfl
  | cons h _ ih => rw [List.map_cons, List.map_cons, h.source?_eq, ih]

/-- **What is not read makes no difference.** -/
theorem resolve_congr (htype : stage'.typeOf? path = stage.typeOf? path)
    (hauthored : ∀ schema, CapsuleSchema.of? stage path = some schema →
      ∀ a ∈ schema.shapeAttributes, stage'.authored? path a.name = stage.authored? path a.name) :
    ShapeParameters.resolve stage' path time t = ShapeParameters.resolve stage path time t := by
  unfold ShapeParameters.resolve
  rw [CapsuleSchema.of?_congr htype]
  cases hschema : CapsuleSchema.of? stage path with
  | none => rfl
  | some schema =>
    have hprim := CapsuleSchema.isSome_typeOf? hschema
    have hreads : schema.shapeAttributes.map (·.read stage' path time) =
        schema.shapeAttributes.map (·.read stage path time) :=
      List.map_congr_left fun a ha =>
        ShapeAttribute.read_congr hprim htype (hauthored schema hschema a ha)
    dsimp only
    rw [hreads]

/-- **Of the report, an attribute shows in its own shortfall only.** -/
theorem filter_shortfalls_congr (hschema : CapsuleSchema.of? stage path = some schema)
    (htype : stage'.typeOf? path = stage.typeOf? path) {changed : ShapeAttribute}
    (hauthored : ∀ a ∈ schema.shapeAttributes, a ≠ changed →
      stage'.authored? path a.name = stage.authored? path a.name) :
    ((ShapeParameters.resolve stage' path time t).shortfalls.filter fun s =>
        s.source? ≠ some changed) =
      (ShapeParameters.resolve stage path time t).shortfalls.filter fun s =>
        s.source? ≠ some changed := by
  have hprim := CapsuleSchema.isSome_typeOf? hschema
  rw [shortfalls_resolve ((CapsuleSchema.of?_congr htype).trans hschema),
    shortfalls_resolve hschema, List.filter_filterMap, List.filter_filterMap]
  refine List.filterMap_congr fun a ha => ?_
  by_cases heq : a = changed
  · -- it may have come or gone, and is filtered out in either case
    subst heq
    rw [ShapeAttribute.filter_shortfall? hprim, ShapeAttribute.filter_shortfall? (htype ▸ hprim)]
  · rw [ShapeAttribute.shortfall?, ShapeAttribute.shortfall?,
      ShapeAttribute.read_congr hprim htype (hauthored a ha heq)]

/-- **Of the parameters, an attribute shows in the fields it feeds only.** -/
theorem field_resolve_congr (hschema : CapsuleSchema.of? stage path = some schema)
    (htype : stage'.typeOf? path = stage.typeOf? path) {field : ShapeField}
    (hauthored : stage'.authored? path (schema.source field).name =
      stage.authored? path (schema.source field).name) :
    (ShapeParameters.resolve stage' path time t).params.field field =
      (ShapeParameters.resolve stage path time t).params.field field := by
  have hschema' := (CapsuleSchema.of?_congr htype).trans hschema
  rw [(readsOff_resolve hschema').field_eq, (readsOff_resolve hschema).field_eq,
    ShapeAttribute.gives?_congr hauthored]

/-- Each attribute is reported once at most. -/
theorem nodup_unusable (stage : Stage) (path : PrimPath) (time : TimeCode)
    (schema : CapsuleSchema) : (schema.unusable stage path time).Nodup := by
  have hnodup : schema.shapeAttributes.Nodup := by cases schema <;> decide
  exact hnodup.filter _

/-- **Fields resolve apart.** A prim of neither schema has the defaults, and that is all that is
reported. A prim that follows a schema is read off attribute by attribute: each field holds what its
attribute gives, or else its default, and the report names the attributes that cannot be used, in
order and each once, with how they fall short; the measures are finite in any case. And if something
else is authored in places, an attribute of the schema shows in the fields it feeds and in its own
shortfall only, and whatever else is authored does not show at all. -/
theorem fields_resolve_apart (stage : Stage) (path : PrimPath) (time : TimeCode)
    (t : Tessellation) :
    let r := ShapeParameters.resolve stage path time t
    (CapsuleSchema.of? stage path = none →
      r = ⟨ShapeParameters.defaults t, none, [.unknownSchema path]⟩) ∧
    (∀ schema, CapsuleSchema.of? stage path = some schema →
      r.ReadsOff stage path time t schema ∧
      r.shortfalls.map Shortfall.source? = (schema.unusable stage path time).map some ∧
      (r.shortfalls.map Shortfall.source?).Nodup ∧
      (∀ a : ShapeAttribute,
        a.gives? stage path time = none ↔ ∃ s, a.FallsShort stage path time s) ∧
      r.params.height.isFinite ∧ r.params.radiusBottom.isFinite ∧ r.params.radiusTop.isFinite) ∧
    ∀ stage' : Stage, stage'.typeOf? path = stage.typeOf? path →
      let r' := ShapeParameters.resolve stage' path time t
      ((∀ schema, CapsuleSchema.of? stage path = some schema → ∀ a ∈ schema.shapeAttributes,
          stage'.authored? path a.name = stage.authored? path a.name) → r' = r) ∧
      ∀ (schema : CapsuleSchema) (changed : ShapeAttribute),
        CapsuleSchema.of? stage path = some schema →
        (∀ a ∈ schema.shapeAttributes, a ≠ changed →
          stage'.authored? path a.name = stage.authored? path a.name) →
        r'.schema = r.schema ∧ r'.params.tessellation = r.params.tessellation ∧
        (∀ field, schema.source field ≠ changed →
          r'.params.field field = r.params.field field) ∧
        (r'.shortfalls.filter fun s => s.source? ≠ some changed) =
          r.shortfalls.filter fun s => s.source? ≠ some changed := by
  intro r
  refine ⟨fun hnone => ?_, fun schema hschema => ?_, fun stage' htype => ?_⟩
  · unfold r ShapeParameters.resolve
    rw [hnone]
  · have hreads : r.ReadsOff stage path time t schema := readsOff_resolve hschema
    have hsources := map_source?_eq hreads.report
    refine ⟨hreads, hsources, ?_, fun a => ?_, hreads.isFinite_params⟩
    · rw [hsources]
      exact (nodup_unusable stage path time schema).map (Option.some_injective _)
    · rw [← ShapeAttribute.isSome_shortfall?_iff, Option.isSome_iff_exists]
      exact exists_congr fun s =>
        ShapeAttribute.shortfall?_eq_some_iff (CapsuleSchema.isSome_typeOf? hschema)
  · intro r'
    refine ⟨resolve_congr htype, fun schema changed hschema hauthored => ?_⟩
    have hschema' := (CapsuleSchema.of?_congr htype).trans hschema
    have hnamed : r'.schema = r.schema :=
      (readsOff_resolve hschema').schema_eq.trans (readsOff_resolve hschema).schema_eq.symm
    have htessellation : r'.params.tessellation = r.params.tessellation :=
      ShapeParameters.tessellation_ofPrim.trans ShapeParameters.tessellation_ofPrim.symm
    refine ⟨hnamed, htessellation, fun field hfield => ?_,
      filter_shortfalls_congr hschema htype hauthored⟩
    exact field_resolve_congr hschema htype
      (hauthored (schema.source field) (schema.source_mem field) hfield)

/-- The older of two flawed capsules with its radius mended. -/
def mended : Stage :=
  Stage.flawedPair.edit (.setFallback ⟨"/old"⟩ "radius" (.double 2))

/-- The axis is reported as before, and the height is what it was. -/
theorem fields_resolve_apart_mended :
    let r := ShapeParameters.resolve Stage.flawedPair ⟨"/old"⟩ (.at 5) {}
    let r' := ShapeParameters.resolve mended ⟨"/old"⟩ (.at 5) {}
    r.shortfalls.map Shortfall.source? = [some .radius, some .axis] ∧
      r'.shortfalls = [.invalidAxis ⟨"/old"⟩ "W"] ∧
      (r'.shortfalls.filter fun s => s.source? ≠ some .radius) =
        (r.shortfalls.filter fun s => s.source? ≠ some .radius) ∧
      r'.params.field .height = r.params.field .height ∧
      ShapeParameters.resolve mended ⟨"/none"⟩ (.at 5) {} =
        ⟨ShapeParameters.defaults {}, none, [.unknownSchema ⟨"/none"⟩]⟩ := by
  have hschema : CapsuleSchema.of? Stage.flawedPair ⟨"/old"⟩ = some .singleRadius := by
    decide +kernel
  obtain ⟨-, hread, hedit⟩ := fields_resolve_apart Stage.flawedPair ⟨"/old"⟩ (.at 5) {}
  obtain ⟨-, hsources, -⟩ := hread .singleRadius hschema
  have hunusable : CapsuleSchema.unusable Stage.flawedPair ⟨"/old"⟩ (.at 5) .singleRadius =
      [.radius, .axis] := by decide +kernel
  rw [hunusable] at hsources
  obtain ⟨-, -, hfields, hreport⟩ := (hedit mended (by decide +kernel)).2 .singleRadius .radius
    hschema (by decide +kernel)
  obtain ⟨hnone, -⟩ := fields_resolve_apart mended ⟨"/none"⟩ (.at 5) {}
  exact ⟨hsources, by decide +kernel, hreport, hfields .height (by decide),
    hnone (by decide +kernel)⟩

end Resolution

end CapsuleImaging
