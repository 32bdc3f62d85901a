import CapsuleImaging.Capsule.Parameters
import CapsuleImaging.Change.DirtyBits
import CapsuleImaging.Json.Document
import CapsuleImaging.Json.Fields
import CapsuleImaging.Json.Reader

/-!
# The archived form of capsules

How meshes, tessellations, parameters and dirty bits are written to and read from outside. A
tessellation may be given in part, the rest being as it is by default; everything else must be
complete.
-/

namespace CapsuleImaging

namespace MeshTopology

/-- The archived form of a connectivity. -/
def toDocument (m : MeshTopology) : Document :=
  .record
    [("face_vertex_counts", .list (m.counts.map fun n => .integer n.toNat)),
     ("face_vertex_indices", .list (m.indices.map fun n => .integer n.toNat))]

/-- A connectivity from its archived form. -/
def ofJson? (j : Json) : Option MeshTopology :=
  match j.record? ["face_vertex_counts", "face_vertex_indices"] with
  | some [counts, indices] => do
    return ⟨← counts.listOf? Json.word?, ← indices.listOf? Json.word?⟩
  | _ => none

end MeshTopology

namespace Axis

/-- The archived form of an axis. -/
def toDocument (a : Axis) : Document := .text a.token

/-- An axis from its archived form. -/
def ofJson? (j : Json) : Option Axis :=
  match j.choice? with
  | some (name, content) => if Json.isBare content then ofToken? name else none
  | none => none

end Axis

namespace CapsuleSchema

/-- The archived name of a schema. -/
def archiveName : CapsuleSchema → String
  | .dualRadius => "DualRadius"
  | .singleRadius => "SingleRadius"

/-- The archived form of a schema. -/
def toDocument (schema : CapsuleSchema) : Document := .text schema.archiveName

/-- A schema from its archived form. -/
def ofJson? (j : Json) : Option CapsuleSchema :=
  match j.choice? with
  | some (name, content) =>
    if Json.isBare content then all.find? (·.archiveName == name) else none
  | none => none

end CapsuleSchema

namespace Tessellation

/-- The archived form of a tessellation. -/
def toDocument (t : Tessellation) : Document :=
  .record
    [("num_radial", .integer t.radial),
     ("num_cap_axial", .integer t.capAxial),
     ("sweep_degrees", .ofFloat t.sweep)]

/-- One field of a tessellation, as by default if it is missing. -/
def fieldOr {α : Type} (default : α) (read : Json → Option α) : Option Json → Option α
  | none => some default
  | some j => read j

/-- A tessellation from its archived form. -/
def ofJson? (j : Json) : Option Tessellation :=
  match j.partialRecord? ["num_radial", "num_cap_axial", "sweep_degrees"] 0 with
  | some [radial, capAxial, sweep] => do
    return {
      radial := ← fieldOr ({} : Tessellation).radial Json.size? radial
      capAxial := ← fieldOr ({} : Tessellation).capAxial Json.size? capAxial
      sweep := ← fieldOr ({} : Tessellation).sweep Json.float? sweep }
  | _ => none

/-- A tessellation from a text. -/
def ofText? (text : String) : Option Tessellation :=
  (Json.parse? text).bind ofJson?

/-- Why a tessellation could not be loaded. -/
inductive LoadError where
  /-- There is no file. -/
  | noFile
  /-- The file does not hold a tessellation. -/
  | malformed
deriving DecidableEq, Repr

/-- **A tessellation from a file**, given what the file holds if there is one. -/
def load (contents : Option String) : Except LoadError Tessellation :=
  match contents with
  | none => .error .noFile
  | some text =>
    match ofText? text with
    | none => .error .malformed
    | some t => .ok t

end Tessellation

namespace ShapeParameters

/-- The archived form of a capsule's parameters. -/
def toDocument (p : ShapeParameters) : Document :=
  .record
    [("height", .ofFloat p.height),
     ("radius_bottom", .ofFloat p.radiusBottom),
     ("radius_top", .ofFloat p.radiusTop),
     ("axis", p.axis.toDocument),
     ("angular_resolution", .integer p.tessellation.radial),
     ("axial_cap_resolution", .integer p.tessellation.capAxial),
     ("sweep_degrees", .ofFloat p.tessellation.sweep)]

/-- A capsule's parameters from their archived form. -/
def ofJson? (j : Json) : Option ShapeParameters :=
  match j.record? ["height", "radius_bottom", "radius_top", "axis", "angular_resolution",
      "axial_cap_resolution", "sweep_degrees"] with
  | some [height, radiusBottom, radiusTop, axis, radial, capAxial, sweep] => do
    return {
      height := ← height.float?
      radiusBottom := ← radiusBottom.float?
      radiusTop := ← radiusTop.float?
      axis := ← Axis.ofJson? axis
      tessellation := ⟨← radial.size?, ← capAxial.size?, ← sweep.float?⟩ }
  | _ => none

end ShapeParameters

namespace DirtyBits

/-- The archived form of a set of categories. -/
def toDocument (bits : DirtyBits) : Document := .text bits.text

/-- A set of categories from its archived form. -/
def ofJson? (j : Json) : Option DirtyBits := j.text?.bind ofText?

end DirtyBits

end CapsuleImaging
