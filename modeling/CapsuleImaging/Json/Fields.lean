import CapsuleImaging.Json.Value

/-!
# What a JSON value stands for

How the parts of a record, a choice, a list and a number are found in a JSON value.

* A **record** is an object with its fields by name, or an array of them in order. Members with
  another name are passed over, a field that comes twice is refused.
* A **choice** is the name alone, or an object with the name as its only key.
* A **table** is an object; of members with one key the last counts.

A string without a text is passed over with the member it is in, and refused everywhere else.
-/

namespace CapsuleImaging.Json

/-- The text of a string. -/
def text? : Json → Option String
  | .string text => text
  | _ => none

/-- A truth value. -/
def bool? : Json → Option Bool
  | .bool b => some b
  | _ => none

/-- A float; an integer is one too. -/
def float? : Json → Option Float
  | .number n => n.toFloat?
  | _ => none

/-- An integer from a range, its upper end excluded. -/
def intIn? (low high : Int) : Json → Option Int
  | .number n => n.toInt?.filter fun i => low ≤ i && i < high
  | _ => none

/-- A natural number of 64 bits. -/
def size? (j : Json) : Option Nat :=
  (intIn? 0 UInt64.size j).map Int.toNat

/-- A natural number of 32 bits. -/
def word? (j : Json) : Option UInt32 :=
  (intIn? 0 UInt32.size j).map fun i => UInt32.ofNat i.toNat

/-- An integer of 64 bits. -/
def int64? (j : Json) : Option Int64 :=
  (intIn? Int64.minValue.toInt (Int64.maxValue.toInt + 1) j).map Int64.ofInt

/-- The items of an array, each read in the same way. -/
def listOf? {α : Type} (read : Json → Option α) : Json → Option (List α)
  | .array items => items.mapM read
  | _ => none

/-- The members of an object, if every key has a text. -/
def members? : Json → Option (List (String × Json))
  | .object members => members.mapM fun (key, value) => key.map (·, value)
  | _ => none

/-- A table, each value read in the same way. -/
def table? {α : Type} (read : Json → Option α) (j : Json) : Option (List (String × α)) :=
  j.members?.bind fun members => members.mapM fun (key, value) => (read value).map (key, ·)

/-- The value of one field, where it may be missing but not come twice. -/
def field? (members : List (String × Json)) (name : String) : Option (Option Json) :=
  match members.filter (·.1 == name) with
  | [] => some none
  | [(_, value)] => some (some value)
  | _ => none

/-- The fields of a record, of which some may be missing. An array must have at least so many of
them, the first ones. -/
def partialRecord? (names : List String) (least : Nat) : Json → Option (List (Option Json))
  | .array items =>
    if least ≤ items.length ∧ items.length ≤ names.length then
      some (items.map some ++ List.replicate (names.length - items.length) none)
    else none
  | j => j.members?.bind fun members => names.mapM (field? members)

/-- The fields of a record, of which those of an object may be missing. -/
def looseRecord? (names : List String) (j : Json) : Option (List (Option Json)) :=
  partialRecord? names names.length j

/-- The fields of a record, all there. -/
def record? (names : List String) (j : Json) : Option (List Json) :=
  (looseRecord? names j).bind (·.mapM id)

/-- A choice: its name, and what is said with it. -/
def choice? : Json → Option (String × Option Json)
  | .string text => text.map (·, none)
  | .object [(some key, value)] => some (key, some value)
  | _ => none

/-- Whether a choice has nothing said with it. -/
def isBare : Option Json → Bool
  | none => true
  | some .null => true
  | some _ => false

end CapsuleImaging.Json
