import CapsuleImaging.Json.Fields
import Mathlib.Data.List.Forall2
import Std.Data.ExtTreeMap

/-!
# The parts of a JSON value

Where in a value the parts stand that a reader looks at: the value at a key (`at?`), of which there
may be several, and the field of a record, by its name or by its place (`part?`). They can be found
in any value. A reader that accepts one has read its parts and nothing else: a table its values
(`at?_map_of_table?`), and a record its fields (`part?_of_record?`).
-/

namespace CapsuleImaging.Json

open Std

/-- The value at a key of an object, the last one. -/
def at? (key : String) : Json → Option Json
  | .object members => (members.findRev? (·.1 == some key)).map (·.2)
  | _ => none

/-- A field of a record: the one at its place in an array, or the one with its name. -/
def part? (name : String) (place : Nat) : Json → Option Json
  | .array items => items[place]?
  | j => j.at? name

variable {α β : Type} {j : Json} {names : List String} {name : String}

/-- What is read item by item stands against the items. -/
theorem forall₂_of_mapM {f : α → Option β} {xs : List α} {ys : List β} (h : xs.mapM f = some ys) :
    List.Forall₂ (f · = some ·) xs ys := by
  induction xs generalizing ys with
  | nil =>
    cases h
    exact .nil
  | cons x rest ih =>
    rw [List.mapM_cons] at h
    obtain ⟨y, hy, h⟩ := Option.bind_eq_some_iff.1 h
    obtain ⟨others, hothers, h⟩ := Option.bind_eq_some_iff.1 h
    cases h
    exact .cons hy (ih hothers)

/-! ## Tables -/

/-- Members are read of an object whose keys all have a text. -/
theorem eq_object_of_members? {members : List (String × Json)} (h : j.members? = some members) :
    j = .object (members.map fun m => (some m.1, m.2)) := by
  cases j with
  | object written =>
    have hall : List.Forall₂ (· = ·) written (members.map fun m => (some m.1, m.2)) := by
      refine List.forall₂_map_right_iff.2 ((forall₂_of_mapM h).imp fun m n hm => ?_)
      obtain ⟨key, hkey, rfl⟩ := Option.map_eq_some_iff.1 hm
      exact Prod.ext hkey rfl
    rw [List.forall₂_eq_eq_eq] at hall
    rw [hall]
  | _ => cases h

theorem at?_of_members? {members : List (String × Json)} (h : j.members? = some members)
    (key : String) : j.at? key = (members.findRev? (·.1 == key)).map (·.2) := by
  rw [eq_object_of_members? h, at?, List.findRev?_eq_find?_reverse, ← List.map_reverse,
    List.find?_map, Option.map_map, List.findRev?_eq_find?_reverse]
  rfl

/-- Pairs that agree in their keys and are read one of the other are found together. -/
theorem findRev?_of_forall₂ {read : Json → Option α} {members : List (String × Json)}
    {entries : List (String × α)}
    (h : List.Forall₂ (fun m e => m.1 = e.1 ∧ read m.2 = some e.2) members entries)
    (key : String) :
    ((members.findRev? (·.1 == key)).map (·.2)).map read =
      ((entries.findRev? (·.1 == key)).map (·.2)).map some := by
  rw [List.findRev?_eq_find?_reverse, List.findRev?_eq_find?_reverse]
  have hback := List.forall₂_reverse_iff.2 h
  generalize members.reverse = ms, entries.reverse = es at hback ⊢
  induction hback with
  | nil => rfl
  | cons hfirst _ ih =>
    obtain ⟨hkey, hread⟩ := hfirst
    rw [List.find?_cons, List.find?_cons, ← hkey]
    split
    · exact congrArg some hread
    · exact ih

/-- **What a table gives for a key is read of the value there.** -/
theorem at?_map_of_table? {read : Json → Option α} {entries : List (String × α)}
    (h : j.table? read = some entries) (key : String) :
    (j.at? key).map read = ((entries.findRev? (·.1 == key)).map (·.2)).map some := by
  obtain ⟨members, hmembers, hread⟩ := Option.bind_eq_some_iff.1 h
  rw [at?_of_members? hmembers]
  refine findRev?_of_forall₂ ((forall₂_of_mapM hread).imp fun m e hm => ?_) key
  obtain ⟨value, hvalue, rfl⟩ := Option.map_eq_some_iff.1 hm
  exact ⟨rfl, hvalue⟩

/-- A map that is made of pairs has at a key what the last pair with it has. -/
theorem getElem?_insertMany {κ ν : Type} [Ord κ] [TransOrd κ] [LawfulEqOrd κ] [BEq κ]
    [LawfulBEq κ] (t : ExtTreeMap κ ν) (entries : List (κ × ν)) (k : κ) :
    (t.insertMany entries)[k]? = ((entries.findRev? (·.1 == k)).map (·.2)).or t[k]? := by
  induction entries generalizing t with
  | nil => rfl
  | cons e rest ih =>
    rw [ExtTreeMap.insertMany_cons, ih, ExtTreeMap.getElem?_insert, List.findRev?]
    cases rest.findRev? (·.1 == k) with
    | some later => rfl
    | none => by_cases hkey : e.1 = k <;> simp [hkey]

/-! ## Records -/

/-- A field that may be missing, but does not come twice. -/
theorem at?_of_field? {members : List (String × Json)} (hmembers : j.members? = some members)
    {value : Option Json} (h : field? members name = some value) : j.at? name = value := by
  rw [at?_of_members? hmembers, List.findRev?_eq_find?_reverse, ← List.getLast?_filter]
  unfold field? at h
  split at h
  · next hnone =>
    rw [hnone]
    exact Option.some.inj h
  · next hone =>
    rw [hone]
    exact Option.some.inj h
  · cases h

/-- **A record is read of its parts**, those that may be missing included. -/
theorem getElem?_of_looseRecord? {fields : List (Option Json)}
    (h : j.looseRecord? names = some fields) (place : Nat) (hname : names[place]? = some name) :
    fields[place]? = some (j.part? name place) := by
  have hplace : place < names.length := (List.getElem?_eq_some_iff.1 hname).1
  by_cases harray : ∃ items, j = .array items
  · obtain ⟨items, rfl⟩ := harray
    simp only [looseRecord?, partialRecord?, Option.ite_none_right_eq_some] at h
    obtain ⟨⟨hleast, hmost⟩, h⟩ := h
    cases h
    rw [List.getElem?_append_left (by rw [List.length_map]; omega), List.getElem?_map,
      List.getElem?_eq_getElem (by omega), part?, List.getElem?_eq_getElem (by omega)]
    rfl
  · have hpart : j.part? name place = j.at? name := by
      cases j with
      | array items => exact absurd ⟨items, rfl⟩ harray
      | _ => rfl
    have hread : (j.members?.bind fun members => names.mapM (field? members)) = some fields := by
      cases j with
      | array items => exact absurd ⟨items, rfl⟩ harray
      | _ => exact h
    obtain ⟨members, hmembers, hfields⟩ := Option.bind_eq_some_iff.1 hread
    have hall := forall₂_of_mapM hfields
    have hlength : place < fields.length := hall.length_eq ▸ hplace
    have hfield := hall.get hplace hlength
    rw [List.get_eq_getElem, List.get_eq_getElem, (List.getElem?_eq_some_iff.1 hname).2] at hfield
    rw [List.getElem?_eq_getElem hlength, hpart, at?_of_field? hmembers hfield]

/-- **And so is one of which no part is missing.** -/
theorem part?_of_record? {fields : List Json} (h : j.record? names = some fields) (place : Nat)
    (hname : names[place]? = some name) : j.part? name place = fields[place]? := by
  obtain ⟨loose, hloose, hfields⟩ := Option.bind_eq_some_iff.1 h
  have hpart := getElem?_of_looseRecord? hloose place hname
  have hall := forall₂_of_mapM hfields
  have hlength : place < loose.length := (List.getElem?_eq_some_iff.1 hpart).1
  have hsame := hall.get hlength (hall.length_eq ▸ hlength)
  rw [List.get_eq_getElem, List.get_eq_getElem, id, (List.getElem?_eq_some_iff.1 hpart).2] at hsame
  rw [hsame, List.getElem?_eq_getElem (hall.length_eq ▸ hlength)]

end CapsuleImaging.Json
