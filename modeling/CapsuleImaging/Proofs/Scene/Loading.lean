import CapsuleImaging.Proofs.Json.Numbers
import CapsuleImaging.Proofs.Json.Parts
import CapsuleImaging.Proofs.Scene.Soundness
import CapsuleImaging.Scene.Archive

/-!
# Loaded stages

A stage that is loaded has what its archive says: its prims and attributes are read of the values
found at their paths and names (`prims_of_ofJson?`, `authored?_of_ofJson?`), and samples are at the
times that are written, in that order (`times_of_ofJson?`). All of these are numbers, but nothing
asks whether paths are such as are read, or whether times ascend. So a loaded stage is sound just if
its archive is orderly (`sound_iff_orderly`), and archives are accepted that are not.
-/

namespace CapsuleImaging

open Std

/-! ## Archives -/

namespace Attribute

/-- The time of an archived sample. -/
def archivedTime? : Json → Option Float
  | .array [time, _] => time.float?
  | _ => none

/-- The times of the samples of an archived attribute, as they are written. -/
def archivedTimes (j : Json) : List Float :=
  match j.part? "samples" 1 with
  | some (.array items) => items.filterMap archivedTime?
  | _ => []

end Attribute

namespace Stage

/-- A prim in the archive of a stage. -/
def archivedPrim? (j : Json) (path : String) : Option Json :=
  (j.part? "prims" 0).bind (·.at? path)

/-- An attribute in the archive of a stage. -/
def archivedAttribute? (j : Json) (path name : String) : Option Json :=
  ((archivedPrim? j path).bind (·.part? "attributes" 1)).bind (·.at? name)

/-- **An orderly archive**: its paths are such as are read, and the times of samples ascend. -/
structure Orderly (j : Json) : Prop where
  named : ∀ path, (archivedPrim? j path).isSome → (PrimPath.mk path).Parsed
  ascending : ∀ path name a, archivedAttribute? j path name = some a →
    (Attribute.archivedTimes a).Pairwise (· < ·)

end Stage

/-! ## Reading -/

namespace Attribute

variable {j : Json} {a : Attribute}

/-- The samples of an archived attribute are read one by one. -/
theorem exists_samples_of_ofJson? (h : ofJson? j = some a) :
    ∃ items, j.part? "samples" 1 = some (.array items) ∧
      List.Forall₂ (sampleOfJson? · = some ·) items a.samples := by
  unfold ofJson? at h
  split at h
  · next fallback samples clips hfields =>
    have hpart := Json.getElem?_of_looseRecord? hfields 1 rfl
    obtain ⟨read, -, h⟩ := Option.bind_eq_some_iff.1 h
    obtain ⟨list, hlist, h⟩ := Option.bind_eq_some_iff.1 h
    obtain ⟨flag, -, h⟩ := Option.bind_eq_some_iff.1 h
    cases h
    cases samples with
    | array items => exact ⟨items, (Option.some.inj hpart).symm, Json.forall₂_of_mapM hlist⟩
    | _ => cases hlist
  · cases h

theorem archivedTime?_of_sampleOfJson? {item : Json} {s : Float × Value}
    (h : sampleOfJson? item = some s) : archivedTime? item = some s.1 := by
  unfold sampleOfJson? at h
  split at h
  · obtain ⟨time, htime, h⟩ := Option.bind_eq_some_iff.1 h
    obtain ⟨value, -, h⟩ := Option.bind_eq_some_iff.1 h
    cases h
    exact htime
  · cases h

theorem number_of_archivedTime? {item : Json} {t : Float} (h : archivedTime? item = some t) :
    ¬ t.isNaN := by
  unfold archivedTime? at h
  split at h
  · exact Json.not_isNaN_of_float? h
  · cases h

/-- **Samples are at the times that are written**, in that order. -/
theorem times_of_ofJson? (h : ofJson? j = some a) : a.samples.map (·.1) = archivedTimes j := by
  obtain ⟨items, hitems, hall⟩ := exists_samples_of_ofJson? h
  rw [archivedTimes, hitems]
  dsimp only
  generalize a.samples = samples at hall ⊢
  clear hitems
  induction hall with
  | nil => rfl
  | cons hfirst _ ih =>
    rw [List.filterMap_cons_some (archivedTime?_of_sampleOfJson? hfirst), ← ih, List.map_cons]

theorem number_of_mem_archivedTimes {t : Float} (h : t ∈ archivedTimes j) : ¬ t.isNaN := by
  unfold archivedTimes at h
  split at h
  · obtain ⟨item, -, hitem⟩ := List.mem_filterMap.1 h
    exact number_of_archivedTime? hitem
  · cases h

/-- The samples of an attribute that is read are in order just if their times are written so. -/
theorem chronological_iff_of_ofJson? (h : ofJson? j = some a) :
    Chronological a.samples ↔ (archivedTimes j).Pairwise (· < ·) := by
  rw [← times_of_ofJson? h, List.pairwise_map]
  refine ⟨Chronological.ascending, fun hascending => ⟨fun s hs => ?_, hascending⟩⟩
  refine number_of_mem_archivedTimes (j := j) ?_
  rw [← times_of_ofJson? h]
  exact List.mem_map_of_mem hs

end Attribute

theorem PrimRecord.attributes_of_ofJson? {j : Json} {prim : PrimRecord} (h : ofJson? j = some prim)
    (name : String) :
    ((j.part? "attributes" 1).bind (·.at? name)).map Attribute.ofJson? =
      prim.attributes[name]?.map some := by
  unfold ofJson? at h
  split at h
  · next type attributes hfields =>
    obtain ⟨text, -, h⟩ := Option.bind_eq_some_iff.1 h
    obtain ⟨entries, hentries, h⟩ := Option.bind_eq_some_iff.1 h
    cases h
    have hpart := Json.part?_of_record? hfields 1 rfl
    rw [hpart, List.getElem?_cons_succ, List.getElem?_cons_zero, Option.bind_some,
      Json.at?_map_of_table? hentries, ExtTreeMap.ofList_eq_insertMany_empty,
      Json.getElem?_insertMany, ExtTreeMap.getElem?_empty, Option.or_none]
  · cases h

namespace Stage

variable {j : Json} {s : Stage} {text : String}

theorem findRev?_map_mk {α : Type} (entries : List (String × α)) (p : PrimPath) :
    ((entries.map fun (path, prim) => (PrimPath.mk path, prim)).findRev? (·.1 == p)).map (·.2) =
      (entries.findRev? (·.1 == p.text)).map (·.2) := by
  have hkey : (fun e : PrimPath × α => e.1 == p) ∘ (fun (path, prim) => (PrimPath.mk path, prim)) =
      fun e : String × α => e.1 == p.text := by
    funext e
    rw [Bool.eq_iff_iff, Function.comp_apply, beq_iff_eq, beq_iff_eq]
    exact ⟨congrArg PrimPath.text, congrArg PrimPath.mk⟩
  rw [List.findRev?_eq_find?_reverse, List.findRev?_eq_find?_reverse, ← List.map_reverse,
    List.find?_map, hkey, Option.map_map]
  rfl

/-- **A prim is read of the value at its path.** -/
theorem prims_of_ofJson? (h : ofJson? j = some s) (p : PrimPath) :
    (archivedPrim? j p.text).map PrimRecord.ofJson? = s.prims[p]?.map some := by
  unfold ofJson? at h
  split at h
  · next prims hfields =>
    obtain ⟨entries, hentries, h⟩ := Option.bind_eq_some_iff.1 h
    cases h
    have hpart := Json.part?_of_record? hfields 0 rfl
    rw [archivedPrim?, hpart, List.getElem?_cons_zero, Option.bind_some,
      Json.at?_map_of_table? hentries, ExtTreeMap.ofList_eq_insertMany_empty,
      Json.getElem?_insertMany, ExtTreeMap.getElem?_empty, Option.or_none, findRev?_map_mk]
  · cases h

theorem log_of_ofJson? (h : ofJson? j = some s) : s.log = [] := by
  unfold ofJson? at h
  split at h
  · obtain ⟨entries, -, h⟩ := Option.bind_eq_some_iff.1 h
    cases h
    rfl
  · cases h

theorem mem_prims_of_ofJson? (h : ofJson? j = some s) (p : PrimPath) :
    p ∈ s.prims ↔ (archivedPrim? j p.text).isSome := by
  have hsame := congrArg Option.isSome (prims_of_ofJson? h p)
  rw [Option.isSome_map, Option.isSome_map] at hsame
  rw [hsame, ExtTreeMap.mem_iff_isSome_getElem?]

/-- **An attribute is read of the value at its prim's path and its name.** -/
theorem authored?_of_ofJson? (h : ofJson? j = some s) (p : PrimPath) (name : String) :
    (archivedAttribute? j p.text name).map Attribute.ofJson? =
      (s.authored? p name).map some := by
  have hprim := prims_of_ofJson? h p
  rw [archivedAttribute?, authored?]
  cases hwritten : archivedPrim? j p.text with
  | none =>
    rw [hwritten, Option.map_none, eq_comm, Option.map_eq_none_iff] at hprim
    rw [hprim]
    rfl
  | some written =>
    rw [hwritten, Option.map_some, eq_comm, Option.map_eq_some_iff] at hprim
    obtain ⟨prim, hread, hsame⟩ := hprim
    rw [hread, Option.bind_some, Option.bind_some, PrimRecord.attributes_of_ofJson? hsame.symm]

/-- **A stage that is read is sound just if the archive is orderly.** -/
theorem sound_iff_orderly (h : ofJson? j = some s) : s.Sound ↔ Orderly j := by
  constructor
  · intro hsound
    constructor
    · intro path hpath
      exact hsound.named ⟨path⟩ ((mem_prims_of_ofJson? h ⟨path⟩).2 hpath)
    · intro path name written hwritten
      have hread := authored?_of_ofJson? h ⟨path⟩ name
      rw [hwritten, Option.map_some, eq_comm, Option.map_eq_some_iff] at hread
      obtain ⟨a, ha, hsame⟩ := hread
      have hordered := hsound.chronological ⟨path⟩ name
      rw [samples, ha, Option.getD_some] at hordered
      exact (Attribute.chronological_iff_of_ofJson? hsame.symm).1 hordered
  · intro horderly
    constructor
    · intro p hp
      exact horderly.named p.text ((mem_prims_of_ofJson? h p).1 hp)
    · intro p name
      rw [samples]
      cases ha : s.authored? p name with
      | none => exact .nil
      | some a =>
        have hread := authored?_of_ofJson? h p name
        rw [ha, Option.map_some, Option.map_eq_some_iff] at hread
        obtain ⟨written, hwritten, hsame⟩ := hread
        exact (Attribute.chronological_iff_of_ofJson? hsame).2
          (horderly.ascending p.text name written hwritten)

/-- **Editing keeps stages sound, and loading gives sound ones of orderly archives only.** From the
empty stage, edits that define prims at paths that are read and set samples at numbers lead to sound
stages. A stage that is loaded from any accepted text has an empty log, and is sound just if the
text is an orderly archive. Where it is, such edits keep it so. -/
theorem load_sound_iff (edits : List Edit) (hnamed : ∀ e ∈ edits, e.IsNamed)
    (htimed : ∀ e ∈ edits, e.IsTimed) :
    (empty.editAll edits).Sound ∧
    ∀ text s, load? text = some s → s.log = [] ∧
      (s.Sound ↔ ∃ j, Json.parse? text = some j ∧ Orderly j) ∧
      (s.Sound → (s.editAll edits).Sound) := by
  refine ⟨sound_empty.editAll hnamed htimed, fun text s h => ?_⟩
  obtain ⟨j, hparse, hread⟩ := Option.bind_eq_some_iff.1 h
  refine ⟨log_of_ofJson? hread, ?_, fun hsound => hsound.editAll hnamed htimed⟩
  rw [sound_iff_orderly hread]
  refine ⟨fun horderly => ⟨j, hparse, horderly⟩, ?_⟩
  rintro ⟨i, hi, horderly⟩
  obtain rfl := Option.some.inj (hparse.symm.trans hi)
  exact horderly

/-- The archive of one capsule, whose height is 1 at one time and 2 at another. -/
def capsuleArchive (path one two : String) : String :=
  "\x7b\"prims\":\x7b\"" ++ path ++ "\":\x7b\"type_name\":\"Capsule\",\"attributes\":" ++
    "\x7b\"height\":\x7b\"samples\":[[" ++ one ++ ",\x7b\"Double\":1\x7d],[" ++ two ++
    ",\x7b\"Double\":2\x7d]],\"value_clips\":false\x7d\x7d\x7d\x7d\x7d"

theorem load_sound_iff_ascending :
    ∃ s, load? (capsuleArchive "/c" "1" "2") = some s ∧
      s.samples ⟨"/c"⟩ "height" = [(1, .double 1), (2, .double 2)] ∧ s.log = [] ∧
      (∃ j, Json.parse? (capsuleArchive "/c" "1" "2") = some j ∧ Orderly j) ∧
      (s.editAll rewriting).Sound ∧ (empty.editAll rewriting).Sound := by
  have hloaded : (load? (capsuleArchive "/c" "1" "2")).any fun s =>
      s.Sound ∧ s.samples ⟨"/c"⟩ "height" = [(1, .double 1), (2, .double 2)] := by decide +kernel
  obtain ⟨s, hload, hs⟩ := (Option.any_eq_true _ _).1 hloaded
  obtain ⟨hsound, hsamples⟩ := of_decide_eq_true hs
  obtain ⟨hedited, hevery⟩ := load_sound_iff rewriting (by decide +kernel) (by decide +kernel)
  obtain ⟨hlog, horderly, hkept⟩ := hevery _ s hload
  exact ⟨s, hload, hsamples, hlog, horderly.1 hsound, hkept hsound, hedited⟩

/-- Archives with a path that is not absolute, or with times that do not ascend, are accepted, and
the stages have both as written. -/
theorem load_accepts_disorder :
    (∃ s, load? (capsuleArchive "World" "1" "2") = some s ∧
      ⟨"World"⟩ ∈ s.prims ∧ ¬ (PrimPath.mk "World").Parsed) ∧
    ∃ s, load? (capsuleArchive "/c" "2" "1") = some s ∧
      s.samples ⟨"/c"⟩ "height" = [(2, .double 1), (1, .double 2)] ∧
      ¬ (s.samples ⟨"/c"⟩ "height").Pairwise (·.1 < ·.1) := by
  constructor
  · have hloaded : (load? (capsuleArchive "World" "1" "2")).any fun s => ⟨"World"⟩ ∈ s.prims := by
      decide +kernel
    obtain ⟨s, hload, hs⟩ := (Option.any_eq_true _ _).1 hloaded
    exact ⟨s, hload, of_decide_eq_true hs, by decide⟩
  · have hloaded : (load? (capsuleArchive "/c" "2" "1")).any fun s =>
        s.samples ⟨"/c"⟩ "height" = [(2, .double 1), (1, .double 2)] := by decide +kernel
    obtain ⟨s, hload, hs⟩ := (Option.any_eq_true _ _).1 hloaded
    have hsamples := of_decide_eq_true hs
    refine ⟨s, hload, hsamples, ?_⟩
    rw [hsamples]
    decide +kernel

end Stage

end CapsuleImaging
