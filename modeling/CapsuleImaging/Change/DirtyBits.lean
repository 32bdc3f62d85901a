import CapsuleImaging.Text

/-!
# Dirty bits

What an imaged prim delivers falls into eight categories, and a set of categories says what has
to be delivered again. A set is a word of 32 bits; the bits without a category are kept as they
are, so that a set read from outside is written back unchanged.

In text a set is the names of its categories, a bar between each two, and the bits without one as
a single hexadecimal number behind them.
-/

namespace CapsuleImaging

/-- A set of categories of output. -/
structure DirtyBits where
  word : BitVec 32
deriving DecidableEq, Repr, Inhabited

namespace DirtyBits

/-- Nothing to deliver. -/
def clean : DirtyBits := ⟨0⟩

/-- The positions of a mesh's points. -/
def points : DirtyBits := ⟨0x01⟩

/-- A mesh's connectivity. -/
def topology : DirtyBits := ⟨0x02⟩

/-- Where a prim stands. -/
def transform : DirtyBits := ⟨0x04⟩

/-- Whether a prim is shown. -/
def visibility : DirtyBits := ⟨0x08⟩

/-- The box around a prim. -/
def extent : DirtyBits := ⟨0x10⟩

/-- Whether a prim's faces show on both sides. -/
def doubleSided : DirtyBits := ⟨0x20⟩

/-- The values spread over a prim's surface. -/
def primvar : DirtyBits := ⟨0x40⟩

/-- The material a prim is bound to. -/
def materialId : DirtyBits := ⟨0x80⟩

/-- Every category. -/
def all : DirtyBits := ⟨0xff⟩

/-- The categories by name, in order of their bits. -/
def names : List (String × DirtyBits) :=
  [("POINTS", points), ("TOPOLOGY", topology), ("TRANSFORM", transform),
   ("VISIBILITY", visibility), ("EXTENT", extent), ("DOUBLE_SIDED", doubleSided),
   ("PRIMVAR", primvar), ("MATERIAL_ID", materialId)]

/-- Both sets together. -/
def union (a b : DirtyBits) : DirtyBits :=
  ⟨a.word ||| b.word⟩

instance : Union DirtyBits := ⟨union⟩

/-- Whether the set has every bit of another. -/
def contains (a b : DirtyBits) : Bool :=
  a.word &&& b.word == b.word

/-- Whether the set has no bit. -/
def isEmpty (a : DirtyBits) : Bool :=
  a.word == 0

theorem word_union (a b : DirtyBits) : (a ∪ b).word = a.word ||| b.word := rfl

/-- Containment, bit by bit. -/
theorem contains_iff {a b : DirtyBits} :
    a.contains b ↔ ∀ i : Nat, b.word.getLsbD i → a.word.getLsbD i := by
  simp only [contains, beq_iff_eq, BitVec.eq_of_getLsbD_eq_iff, BitVec.getLsbD_and]
  constructor
  · intro h i hi
    have := h i (BitVec.lt_of_getLsbD hi)
    simp_all
  · intro h i _
    have := h i
    grind

theorem contains_trans {a b c : DirtyBits} (hab : a.contains b) (hbc : b.contains c) :
    a.contains c :=
  contains_iff.2 fun i hi => contains_iff.1 hab i (contains_iff.1 hbc i hi)

/-- The names of the categories in the set. -/
def namesIn (a : DirtyBits) : List String :=
  (names.filter fun (_, flag) => a.contains flag).map (·.1)

/-! ## Text -/

/-- A number in base sixteen behind `0x`. -/
def hexText (n : Nat) : String :=
  "0x" ++ String.ofList (Text.hexDigits n)

/-- The set as names, with a number for the bits that have none. -/
def text (a : DirtyBits) : String :=
  let unnamed := a.word &&& ~~~all.word
  " | ".intercalate (a.namesIn ++ if unnamed = 0 then [] else [hexText unnamed.toNat])

/-- The set in a report, where the empty set is spelled as a number. -/
def report (a : DirtyBits) : String :=
  let content := if a.isEmpty then hexText 0 else a.text
  s!"DirtyBits({content})"

/-- A hexadecimal number of at least one digit, perhaps behind a plus sign, that fits a word. -/
def readHex? (cs : List Char) : Option (BitVec 32) :=
  let digits := if cs.head? = some '+' then cs.tail else cs
  if digits.isEmpty then none
  else ((Text.hexNumber? digits).filter (· < UInt32.size)).map (BitVec.ofNat 32)

/-- One part of a set's text: a number behind `0x`, or else the exact name of a category. -/
def readPart? (part : List Char) : Option DirtyBits :=
  match part with
  | '0' :: 'x' :: digits => (readHex? digits).map DirtyBits.mk
  | _ => (names.find? fun (name, _) => name.toList == part).map (·.2)

/-- **Read a set from its text.** A blank text is the empty set; otherwise each part between
bars must be a name or a number, with blanks around it or without. -/
def ofText? (text : String) : Option DirtyBits :=
  let cs := text.toList
  if (Text.trimmed cs).isEmpty then some clean
  else
    ((cs.splitOn '|').mapM fun part => readPart? (Text.trimmed part)).map
      (·.foldl (· ∪ ·) clean)

example : report ⟨0x103⟩ = "DirtyBits(POINTS | TOPOLOGY | 0x100)" := by decide +kernel

example : report clean = "DirtyBits(0x0)" := by decide +kernel

example : ofText? " 0x1F|PRIMVAR" = some ⟨0x5f⟩ ∧ ofText? "POINTS|" = none := by decide +kernel

end DirtyBits

end CapsuleImaging
