import CapsuleImaging.Text

/-!
# Prim paths

A prim of a scene is named by an absolute path: a slash, and the elements on the way from the
root, a slash between each two. `PrimPath.parse` accepts a text exactly when it is the root's
`/` or such a path with no element empty, and keeps the text as it is; `PrimPath.child` appends
one element through the same gate.

A `PrimPath` is its text, and paths are ordered by it, so the prims below a path do not always
follow it directly: `/a` and `/a/b` stand on either side of `/a-b`.
-/

namespace CapsuleImaging

open Std

/-- The name of a prim. -/
structure PrimPath where
  text : String
deriving DecidableEq, Repr, Inhabited

/-- Why a text is no prim path. -/
inductive PathError where
  /-- It does not begin with a slash. -/
  | notAbsolute (text : String)
  /-- Two slashes stand together, or one stands at the end. -/
  | emptyElement (text : String)
deriving DecidableEq, Repr

/-- What a reader is told about a text that is no prim path. -/
def PathError.message : PathError → String
  | .notAbsolute text => s!"prim path {Text.quoted text} must be absolute"
  | .emptyElement text => s!"prim path {Text.quoted text} contains an empty element"

namespace PrimPath

/-- Paths are ordered by their texts, character by character. -/
instance : Ord PrimPath := ⟨compareOn text⟩

instance : TransOrd PrimPath :=
  inferInstanceAs (TransCmp (compareOn text))

instance : LawfulEqOrd PrimPath where
  eq_of_compare {p q} h := by
    cases p; cases q
    exact congrArg PrimPath.mk (Std.compare_eq_iff_eq.1 h)

/-- The path of the root. -/
def root : PrimPath := ⟨"/"⟩

/-- **Read a path.** The text must begin with a slash, and unless it is the slash alone no part
between slashes, nor the one behind the last, may be empty. -/
def parse (text : String) : Except PathError PrimPath :=
  match text.toList with
  | '/' :: rest =>
    if rest ≠ [] ∧ [] ∈ rest.splitOn '/' then .error (.emptyElement text) else .ok ⟨text⟩
  | _ => .error (.notAbsolute text)

/-- What is read is kept as it is. -/
theorem text_of_parse {s : String} {p : PrimPath} (h : parse s = .ok p) : p.text = s := by
  unfold parse at h
  split at h
  · split at h <;> cases h
    rfl
  · cases h

/-- The last part of the text, as divided by slashes; empty for the root. -/
def name (p : PrimPath) : String :=
  String.ofList ((p.text.toList.splitOn '/').getLastD [])

/-- The path of the prim `name` directly below `p`. -/
def child (p : PrimPath) (name : String) : Except PathError PrimPath :=
  if p = root then parse ("/" ++ name) else parse (p.text ++ "/" ++ name)

/-- Some paths in order. -/
def sort (paths : List PrimPath) : List PrimPath :=
  paths.mergeSort fun p q => (compare p q).isLE

/-- Whether `q` lies below `p` by its text: it goes on behind `p`'s text and a slash. -/
def isBelow (p q : PrimPath) : Bool :=
  (p.text.toList ++ ['/']).isPrefixOf q.text.toList

end PrimPath

end CapsuleImaging
