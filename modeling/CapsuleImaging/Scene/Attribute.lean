import CapsuleImaging.Scene.Time
import CapsuleImaging.Scene.Value

/-!
# Attributes

An attribute has a default, which holds when no time is asked for, and samples, which hold at
their times: before the first and after the last the nearest sample holds, and between two the
value blends. An attribute without samples has its default at every time.

Samples are kept in order of time, at most one to a time; a sample set at a time that is there
already replaces the value and leaves the time as it was written. So those that a time has reached
stand in front, and where they end is found by **halving**.
-/

namespace CapsuleImaging

namespace Halving

/-- The last place of a range that passes a test, if those that pass it stand in front: the middle
of what is left tells which half to go on with. Where none passes it is the first. -/
def lastPassed (test : Nat → Bool) (first count : Nat) : Nat :=
  if 1 < count then
    if test (first + count / 2) then lastPassed test (first + count / 2) (count - count / 2)
    else lastPassed test first (count - count / 2)
  else first
termination_by count

/-- How many entries of a list pass a test, if those that pass it stand in front. -/
def partitionPoint {α : Type} (test : α → Bool) (xs : List α) : Nat :=
  let place := lastPassed (fun i => xs[i]?.any test) 0 xs.length
  if xs[place]?.any test then place + 1 else place

end Halving

/-- What is authored for one attribute. -/
structure Attribute where
  /-- What holds when no time is asked for. -/
  fallback : Option Value := none
  /-- What holds at which time, in order of time. -/
  samples : List (Float × Value) := []
  /-- Whether further values are supplied from outside the scene. -/
  clips : Bool := false
deriving DecidableEq, Repr

namespace Attribute

/-- Whether the value may depend on the time. -/
def mayVary (a : Attribute) : Bool :=
  1 < a.samples.length || a.clips

open Halving

/-- A list of samples with one more, behind all earlier ones, in place of one at its time. -/
def insertSample (time : Float) (value : Value) (samples : List (Float × Value)) :
    List (Float × Value) :=
  let place := partitionPoint (·.1 < time) samples
  if samples[place]?.any (·.1 == time) then samples.modify place fun s => (s.1, value)
  else samples.insertIdx place (time, value)

/-- The attribute with a sample set. -/
def setSample (a : Attribute) (time : Float) (value : Value) : Attribute :=
  { a with samples := insertSample time value a.samples }

/-- What holds at a time, given the samples that it has reached and those ahead of it. -/
def between? (reached ahead : List (Float × Value)) (time : Float) : Option Value :=
  match reached.getLast?, ahead.head? with
  | none, none => none
  | none, some (_, first) => some first
  | some (_, last), none => some last
  | some (t₀, v₀), some (t₁, v₁) =>
    some (if t₀ == time then v₀ else v₀.lerp v₁ ((time - t₀) / (t₁ - t₀)))

/-- What the samples give at a time, unless there are none. -/
def sampled? (samples : List (Float × Value)) (time : Float) : Option Value :=
  let place := partitionPoint (·.1 ≤ time) samples
  between? (samples.take place) (samples.drop place) time

/-- **The value of an attribute** at a time code, if it has one. -/
def resolve (a : Attribute) : TimeCode → Option Value
  | .default => a.fallback
  | .at time => (sampled? a.samples time).or a.fallback

end Attribute

end CapsuleImaging
