import CapsuleImaging.Scene.Attribute
import CapsuleImaging.Scene.Path
import Std.Data.ExtTreeMap

/-!
# Stages

A stage holds prims by path, each with a type and its attributes, and logs what happens to it.
The log is the whole of what a listener is told: an edit that changes anything appends the events
that say so, and one that fails or finds nothing to do appends none.
-/

namespace CapsuleImaging

open Std

/-- A prim of a stage. -/
structure PrimRecord where
  /-- The name of the prim's type; empty for a prim without one. -/
  type : String
  attributes : ExtTreeMap String Attribute

/-- Something that happened to a stage. -/
inductive StageEvent where
  /-- A prim was defined or given another type. -/
  | defined (path : PrimPath) (type : String)
  | removed (path : PrimPath)
  /-- An attribute was written or cleared. -/
  | changed (path : PrimPath) (name : String)
deriving DecidableEq, Repr

/-- The prim an event is about. -/
def StageEvent.path : StageEvent → PrimPath
  | .defined path _ => path
  | .removed path => path
  | .changed path _ => path

/-- The prims of a scene, and what has happened to them since the log was last drained. -/
structure Stage where
  prims : ExtTreeMap PrimPath PrimRecord
  log : List StageEvent

/-- Why a stage has no answer. -/
inductive StageError where
  | primNotFound (path : PrimPath)
  | attributeNotFound (path : PrimPath) (name : String)
  /-- The attribute is authored, but not for this time. -/
  | noValue (path : PrimPath) (name : String) (time : TimeCode)
  /-- The attribute holds a value of another kind. -/
  | typeMismatch (path : PrimPath) (name : String) (expected found : ValueKind)
deriving DecidableEq, Repr

/-- What a reader is told when a stage has no answer. -/
def StageError.message : StageError → String
  | .primNotFound path => s!"prim {path.text} not found"
  | .attributeNotFound path name =>
    s!"attribute {name} not authored on {path.text}"
  | .noValue path name time =>
    s!"attribute {name} on {path.text} has no value at {time.text}"
  | .typeMismatch path name expected found =>
    s!"attribute {name} on {path.text} holds {found.name}, expected {expected.name}"

namespace Stage

/-- A stage without prims or history. -/
def empty : Stage := ⟨∅, []⟩

/-! ## Edits -/

/-- Define a prim. One that is there already keeps its attributes and takes the new type. -/
def define (s : Stage) (path : PrimPath) (type : String) : Stage where
  prims := s.prims.alter path fun
    | some prim => some { prim with type }
    | none => some ⟨type, ∅⟩
  log := s.log ++ [.defined path type]

theorem prims_define (s : Stage) (path q : PrimPath) (type : String) :
    (s.define path type).prims[q]? =
      if path = q then some ⟨type, (s.prims[path]?.map (·.attributes)).getD ∅⟩
      else s.prims[q]? := by
  simp only [define, ExtTreeMap.getElem?_alter, Std.compare_eq_iff_eq]
  split
  · cases s.prims[path]? <;> rfl
  · rfl

/-- Remove a prim and everything below it, in order of path, itself last; the record of the prim
itself is given back. Nothing happens if there is no such prim. -/
def remove (s : Stage) (path : PrimPath) : Option PrimRecord × Stage :=
  match s.prims[path]? with
  | none => (none, s)
  | some prim =>
    let others := s.prims.erase path
    let below := others.keys.filter path.isBelow
    (some prim,
      { prims := others.filter fun q _ => !path.isBelow q
        log := s.log ++ below.map .removed ++ [.removed path] })

theorem remove_of_absent {s : Stage} {path : PrimPath} (h : s.prims[path]? = none) :
    s.remove path = (none, s) := by
  simp [remove, h]

theorem prims_remove {s : Stage} {path : PrimPath} {prim : PrimRecord}
    (h : s.prims[path]? = some prim) (q : PrimPath) :
    (s.remove path).2.prims[q]? =
      if path = q ∨ path.isBelow q then none else s.prims[q]? := by
  simp only [remove, h]
  grind

/-- Change what is authored for an attribute, starting from nothing if nothing is. -/
def write (s : Stage) (path : PrimPath) (name : String) (change : Attribute → Attribute) :
    Except StageError Stage :=
  match s.prims[path]? with
  | none => .error (.primNotFound path)
  | some prim =>
    let written := change (prim.attributes[name]?.getD {})
    .ok
      { prims := s.prims.insert path
          { prim with attributes := prim.attributes.insert name written }
        log := s.log ++ [.changed path name] }

theorem write_of_absent {s : Stage} {path : PrimPath} (h : s.prims[path]? = none) (name : String)
    (change : Attribute → Attribute) :
    s.write path name change = .error (.primNotFound path) := by
  simp [write, h]

/-- Set the default of an attribute. -/
def setFallback (s : Stage) (path : PrimPath) (name : String) (value : Value) :
    Except StageError Stage :=
  s.write path name fun a => { a with fallback := some value }

/-- Set a sample of an attribute. -/
def setSample (s : Stage) (path : PrimPath) (name : String) (time : Float) (value : Value) :
    Except StageError Stage :=
  s.write path name fun a => a.setSample time value

/-- Say whether an attribute is supplied with values from outside the scene. -/
def setClips (s : Stage) (path : PrimPath) (name : String) (clips : Bool) :
    Except StageError Stage :=
  s.write path name fun a => { a with clips }

/-- Clear an attribute, and tell whether it was authored. -/
def clear (s : Stage) (path : PrimPath) (name : String) :
    Except StageError (Bool × Stage) :=
  match s.prims[path]? with
  | none => .error (.primNotFound path)
  | some prim =>
    if name ∈ prim.attributes then
      .ok (true,
        { prims := s.prims.insert path
            { prim with attributes := prim.attributes.erase name }
          log := s.log ++ [.changed path name] })
    else .ok (false, s)

/-- Take the events logged so far. -/
def drain (s : Stage) : List StageEvent × Stage :=
  (s.log, { s with log := [] })

/-! ## Queries -/

/-- The paths of all prims, in order. -/
def paths (s : Stage) : List PrimPath :=
  s.prims.keys

/-- The type of a prim, unless it has none. -/
def typeOf? (s : Stage) (path : PrimPath) : Option String :=
  (s.prims[path]?.map (·.type)).filter (· ≠ "")

/-- Whether a prim is of a type. -/
def isA (s : Stage) (path : PrimPath) (type : String) : Bool :=
  s.typeOf? path == some type

/-- What is authored for an attribute. -/
def authored? (s : Stage) (path : PrimPath) (name : String) : Option Attribute :=
  s.prims[path]?.bind (·.attributes[name]?)

/-- A write reaches one attribute of one prim. -/
theorem authored?_write {s t : Stage} {path : PrimPath} {name : String}
    {change : Attribute → Attribute} (h : s.write path name change = .ok t) (q : PrimPath)
    (other : String) :
    t.authored? q other =
      if path = q ∧ name = other then some (change ((s.authored? path name).getD {}))
      else s.authored? q other := by
  unfold write at h
  split at h
  · cases h
  · next prim hp =>
    cases h
    by_cases hq : path = q <;> by_cases hn : name = other <;>
      simp_all [authored?, ExtTreeMap.getElem?_insert]

theorem log_write {s t : Stage} {path : PrimPath} {name : String}
    {change : Attribute → Attribute} (h : s.write path name change = .ok t) :
    t.log = s.log ++ [.changed path name] := by
  unfold write at h
  split at h <;> cases h
  rfl

/-- The names of a prim's authored attributes, in order. -/
def attributeNames (s : Stage) (path : PrimPath) : List String :=
  match s.prims[path]? with
  | some prim => prim.attributes.keys
  | none => []

/-- The names of a prim's attributes are those under which something is authored. -/
theorem mem_attributeNames_iff {s : Stage} {path : PrimPath} {name : String} :
    name ∈ s.attributeNames path ↔ (s.authored? path name).isSome := by
  unfold attributeNames authored?
  cases s.prims[path]? with
  | none => simp
  | some prim => exact ExtTreeMap.mem_keys.trans ExtTreeMap.mem_iff_isSome_getElem?

/-- **The value of an attribute** at a time code. -/
def valueAt (s : Stage) (path : PrimPath) (name : String) (time : TimeCode) :
    Except StageError Value :=
  match s.prims[path]? with
  | none => .error (.primNotFound path)
  | some prim =>
    match prim.attributes[name]? with
    | none => .error (.attributeNotFound path name)
    | some a =>
      match a.resolve time with
      | none => .error (.noValue path name time)
      | some value => .ok value

/-- The value of an attribute as a double. -/
def doubleAt (s : Stage) (path : PrimPath) (name : String) (time : TimeCode) :
    Except StageError Float :=
  match s.valueAt path name time with
  | .error e => .error e
  | .ok value =>
    match value.asDouble? with
    | some x => .ok x
    | none => .error (.typeMismatch path name .double value.kind)

/-- The value of an attribute as a token. -/
def tokenAt (s : Stage) (path : PrimPath) (name : String) (time : TimeCode) :
    Except StageError String :=
  match s.valueAt path name time with
  | .error e => .error e
  | .ok value =>
    match value.asToken? with
    | some token => .ok token
    | none => .error (.typeMismatch path name .token value.kind)

/-- Whether the value of an attribute may depend on the time. -/
def mayVary (s : Stage) (path : PrimPath) (name : String) : Bool :=
  ((s.authored? path name).map (·.mayVary)).getD false

end Stage

end CapsuleImaging
