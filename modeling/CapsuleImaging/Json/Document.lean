/-!
# Documents

What a value looks like from outside: the form in which stages, meshes and settings are handed
out. Numbers are floats or integers here, not yet digits; a float that is not finite has no place
in a document and is left out as a null.
-/

namespace CapsuleImaging

/-- The outside form of a value. -/
inductive Document where
  | null
  | bool (b : Bool)
  | integer (n : Int)
  | float (x : Float)
  | text (s : String)
  | list (items : List Document)
  | record (fields : List (String × Document))
deriving Repr

namespace Document

/-- A float, or a null for one that is not finite. -/
def ofFloat (x : Float) : Document :=
  if x.isFinite then .float x else .null

/-- A choice with something said with it. -/
def choice (name : String) (content : Document) : Document :=
  .record [(name, content)]

/-- Something optional. -/
def optional {α : Type} (write : α → Document) : Option α → Document
  | some a => write a
  | none => .null

/-- A table, in order of its keys. -/
def table {α : Type} (write : α → Document) (entries : List (String × α)) : Document :=
  .record (entries.map fun (key, value) => (key, write value))

end Document

end CapsuleImaging
