import CapsuleImaging.Json.Document
import CapsuleImaging.Json.Fields
import CapsuleImaging.Json.Reader
import CapsuleImaging.Scene.Stage

/-!
# The archived form of a scene

How paths, times, values, events and whole stages are written to and read from outside. A path is
its text and is taken as it stands, and samples are taken in the order they are written: an
archive is believed. The log of a stage is not archived.
-/

namespace CapsuleImaging

open Std

namespace PrimPath

/-- The archived form of a path. -/
def toDocument (p : PrimPath) : Document := .text p.text

/-- A path from its archived form. -/
def ofJson? (j : Json) : Option PrimPath := j.text?.map PrimPath.mk

end PrimPath

namespace TimeCode

/-- The archived form of a time code. -/
def toDocument : TimeCode → Document
  | .default => .text "Default"
  | .at t => .choice "At" (.ofFloat t)

/-- A time code from its archived form. -/
def ofJson? (j : Json) : Option TimeCode :=
  match j.choice? with
  | some ("Default", content) => if Json.isBare content then some .default else none
  | some ("At", some t) => t.float?.map TimeCode.at
  | _ => none

end TimeCode

namespace Value

/-- The archived form of a value. -/
def toDocument : Value → Document
  | .bool b => .choice "Bool" (.bool b)
  | .int n => .choice "Int" (.integer n.toInt)
  | .double x => .choice "Double" (.ofFloat x)
  | .token text => .choice "Token" (.text text)
  | .vec3 v => .choice "Vec3" (.list [.ofFloat v.x, .ofFloat v.y, .ofFloat v.z])

/-- Three coordinates from their archived form, an array. -/
def vec3OfJson? : Json → Option Vec3
  | .array [x, y, z] => do return ⟨← x.float?, ← y.float?, ← z.float?⟩
  | _ => none

/-- A value from its archived form. -/
def ofJson? (j : Json) : Option Value :=
  match j.choice? with
  | some ("Bool", some content) => content.bool?.map Value.bool
  | some ("Int", some content) => content.int64?.map Value.int
  | some ("Double", some content) => content.float?.map Value.double
  | some ("Token", some content) => content.text?.map Value.token
  | some ("Vec3", some content) => (vec3OfJson? content).map Value.vec3
  | _ => none

end Value

namespace StageEvent

/-- The archived form of an event. -/
def toDocument : StageEvent → Document
  | .defined path type =>
    .choice "PrimDefined" (.record [("path", path.toDocument), ("type_name", .text type)])
  | .removed path => .choice "PrimRemoved" (.record [("path", path.toDocument)])
  | .changed path name =>
    .choice "AttributeChanged" (.record [("path", path.toDocument), ("attribute", .text name)])

/-- An event from its archived form. -/
def ofJson? (j : Json) : Option StageEvent :=
  match j.choice? with
  | some ("PrimDefined", some content) =>
    match content.record? ["path", "type_name"] with
    | some [path, type] => do return .defined (← PrimPath.ofJson? path) (← type.text?)
    | _ => none
  | some ("PrimRemoved", some content) =>
    match content.record? ["path"] with
    | some [path] => do return .removed (← PrimPath.ofJson? path)
    | _ => none
  | some ("AttributeChanged", some content) =>
    match content.record? ["path", "attribute"] with
    | some [path, name] => do return .changed (← PrimPath.ofJson? path) (← name.text?)
    | _ => none
  | _ => none

end StageEvent

namespace Attribute

/-- The archived form of an attribute. -/
def toDocument (a : Attribute) : Document :=
  .record
    [("default", .optional Value.toDocument a.fallback),
     ("samples", .list (a.samples.map fun (t, v) => .list [.ofFloat t, v.toDocument])),
     ("value_clips", .bool a.clips)]

/-- A sample from its archived form, an array of time and value. -/
def sampleOfJson? : Json → Option (Float × Value)
  | .array [t, v] => do return (← t.float?, ← Value.ofJson? v)
  | _ => none

/-- A default from its archived form, where a null or nothing at all means that there is none. -/
def fallbackOfJson? : Option Json → Option (Option Value)
  | none => some none
  | some .null => some none
  | some j => (Value.ofJson? j).map some

/-- An attribute from its archived form. -/
def ofJson? (j : Json) : Option Attribute :=
  match j.looseRecord? ["default", "samples", "value_clips"] with
  | some [fallback, some samples, some clips] => do
    return {
      fallback := ← fallbackOfJson? fallback
      samples := ← samples.listOf? sampleOfJson?
      clips := ← clips.bool? }
  | _ => none

end Attribute

namespace PrimRecord

/-- The archived form of a prim. -/
def toDocument (prim : PrimRecord) : Document :=
  .record
    [("type_name", .text prim.type),
     ("attributes", .table Attribute.toDocument prim.attributes.toList)]

/-- A prim from its archived form. -/
def ofJson? (j : Json) : Option PrimRecord :=
  match j.record? ["type_name", "attributes"] with
  | some [type, attributes] => do
    return ⟨← type.text?, .ofList (← attributes.table? Attribute.ofJson?) compare⟩
  | _ => none

end PrimRecord

namespace Stage

/-- The archived form of a stage. -/
def toDocument (s : Stage) : Document :=
  .record
    [("prims", .table PrimRecord.toDocument (s.prims.toList.map fun (p, prim) => (p.text, prim)))]

/-- A stage from its archived form, with an empty log. -/
def ofJson? (j : Json) : Option Stage :=
  match j.record? ["prims"] with
  | some [prims] => do
    let entries ← prims.table? PrimRecord.ofJson?
    return ⟨.ofList (entries.map fun (text, prim) => (PrimPath.mk text, prim)) compare, []⟩
  | _ => none

/-- **A stage from the text of an archive.** -/
def load? (text : String) : Option Stage :=
  (Json.parse? text).bind ofJson?

end Stage

end CapsuleImaging
