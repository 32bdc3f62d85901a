import CapsuleImaging.Scene.Stage

/-!
# What the log tells of an edit

An `Edit` is one thing that an embedder does to a stage. One that fails or finds nothing to do
leaves the stage as it is. `told_edit` is all that listeners rely on: an edit appends its events to
the log, and whatever none of them is about is as it was before.
-/

namespace CapsuleImaging

open Std

/-- One edit of a stage. -/
inductive Edit where
  | define (path : PrimPath) (type : String)
  | remove (path : PrimPath)
  | setFallback (path : PrimPath) (name : String) (value : Value)
  | setSample (path : PrimPath) (name : String) (time : Float) (value : Value)
  | setClips (path : PrimPath) (name : String) (clips : Bool)
  | clear (path : PrimPath) (name : String)
deriving DecidableEq, Repr

/-- The stage after an edit; one that fails changes nothing. -/
def Stage.edit (s : Stage) : Edit → Stage
  | .define path type => s.define path type
  | .remove path => (s.remove path).2
  | .setFallback path name value => (s.setFallback path name value).toOption.getD s
  | .setSample path name time value => (s.setSample path name time value).toOption.getD s
  | .setClips path name clips => (s.setClips path name clips).toOption.getD s
  | .clear path name => ((s.clear path name).toOption.map (·.2)).getD s

/-- The attribute that an edit writes or clears, with its prim; a prim is defined and removed as a
whole. -/
def Edit.attribute? : Edit → Option (PrimPath × String)
  | .define _ _ => none
  | .remove _ => none
  | .setFallback path name _ => some (path, name)
  | .setSample path name _ _ => some (path, name)
  | .setClips path name _ => some (path, name)
  | .clear path name => some (path, name)

/-- Whether an event is about a prim as a whole: it came, went or took another type. -/
def StageEvent.Resets : StageEvent → PrimPath → Prop
  | .defined q _, p => q = p
  | .removed q, p => q = p
  | .changed _ _, _ => False

namespace StageEvent

instance : ∀ (e : StageEvent) (p : PrimPath), Decidable (e.Resets p)
  | .defined q _, p => inferInstanceAs (Decidable (q = p))
  | .removed q, p => inferInstanceAs (Decidable (q = p))
  | .changed _ _, _ => inferInstanceAs (Decidable False)

/-- The last event that resets a prim, if any does. -/
def lastReset? (events : List StageEvent) (p : PrimPath) : Option StageEvent :=
  (events.filter fun e => e.Resets p).getLast?

@[simp] theorem resets_defined {q p : PrimPath} {type : String} :
    (defined q type).Resets p ↔ q = p := Iff.rfl

@[simp] theorem resets_removed {q p : PrimPath} : (removed q).Resets p ↔ q = p := Iff.rfl

@[simp] theorem resets_changed {q p : PrimPath} {name : String} :
    ¬ (changed q name).Resets p := id

/-- A prim is reset by events at its own path only. -/
theorem path_eq_of_resets {e : StageEvent} {p : PrimPath} (h : e.Resets p) : e.path = p := by
  cases e with
  | defined q type => exact h
  | removed q => exact h
  | changed q name => exact h.elim

theorem mem_of_lastReset? {events : List StageEvent} {p : PrimPath} {e : StageEvent}
    (h : lastReset? events p = some e) : e ∈ events :=
  (List.mem_filter.1 (List.mem_of_getLast? h)).1

theorem lastReset?_eq_none {events : List StageEvent} {p : PrimPath} :
    lastReset? events p = none ↔ ∀ e ∈ events, ¬ e.Resets p := by
  simp [lastReset?]

/-- Later resets hide earlier ones. -/
theorem lastReset?_append (events later : List StageEvent) (p : PrimPath) :
    lastReset? (events ++ later) p = (lastReset? later p).or (lastReset? events p) := by
  rw [lastReset?, List.filter_append, List.getLast?_append, lastReset?, lastReset?]

/-- The first event counts only if no later one resets the prim. -/
theorem lastReset?_cons (e : StageEvent) (later : List StageEvent) (p : PrimPath) :
    lastReset? (e :: later) p = (lastReset? later p).or (if e.Resets p then some e else none) := by
  have hfirst : lastReset? [e] p = if e.Resets p then some e else none := by
    by_cases h : e.Resets p <;> simp [lastReset?, h]
  rw [← List.singleton_append, lastReset?_append, hfirst]

/-- An event that does not reset the prim does not count. -/
theorem lastReset?_cons_of_not_resets {e : StageEvent} {p : PrimPath} (h : ¬ e.Resets p)
    (later : List StageEvent) : lastReset? (e :: later) p = lastReset? later p := by
  rw [lastReset?_cons, if_neg h, Option.or_none]

end StageEvent

namespace Stage

/-- **What events tell of the way from one stage to another**: they were appended to the log, and
what they are not about is unchanged. -/
structure Told (s t : Stage) (events : List StageEvent) : Prop where
  log : t.log = s.log ++ events
  /-- A prim that no event resets is there as before, with its type. -/
  type : ∀ p, (∀ e ∈ events, ¬ e.Resets p) → t.prims[p]?.map (·.type) = s.prims[p]?.map (·.type)
  /-- An attribute that no event is about holds what it held. -/
  authored : ∀ p name, (∀ e ∈ events, ¬ e.Resets p) → .changed p name ∉ events →
    t.authored? p name = s.authored? p name
  /-- What was removed is gone. -/
  gone : ∀ p, .removed p ∈ events → t.prims[p]? = none

/-- A stage that is left alone has nothing to tell. -/
theorem Told.refl (s : Stage) : Told s s [] where
  log := (List.append_nil _).symm
  type _ _ := rfl
  authored _ _ _ _ := rfl
  gone _ h := by cases h

theorem told_define (s : Stage) (path : PrimPath) (type : String) :
    Told s (s.define path type) [.defined path type] where
  log := rfl
  type p h := by
    have hne : path ≠ p := h _ (List.mem_singleton_self _)
    rw [prims_define, if_neg hne]
  authored p name h _ := by
    have hne : path ≠ p := h _ (List.mem_singleton_self _)
    rw [authored?, prims_define, if_neg hne, authored?]
  gone p h := by simp at h

/-- The events of a removal name exactly what is gone. -/
theorem told_remove (s : Stage) (path : PrimPath) :
    ∃ events, Told s (s.remove path).2 events := by
  cases h : s.prims[path]? with
  | none =>
    rw [remove_of_absent h]
    exact ⟨[], Told.refl s⟩
  | some prim =>
    have hgone : ∀ p, path = p ∨ path.isBelow p → (s.remove path).2.prims[p]? = none := by
      intro p hp
      rw [prims_remove h, if_pos hp]
    have hkept : ∀ p, ¬ (path = p ∨ path.isBelow p) →
        (s.remove path).2.prims[p]? = s.prims[p]? := by
      intro p hp
      rw [prims_remove h, if_neg hp]
    let below := (s.prims.erase path).keys.filter path.isBelow
    have hmem : ∀ p ∈ s.prims, path = p ∨ path.isBelow p →
        .removed p ∈ below.map StageEvent.removed ++ [.removed path] := by
      intro p hp hbelow
      by_cases hpath : path = p
      · simp [hpath]
      · have : path.isBelow p := hbelow.resolve_left hpath
        simp [below, ExtTreeMap.mem_erase, hpath, hp, this]
    -- a prim without an event of its own is neither the one removed nor below it
    have hprims : ∀ p, (∀ e ∈ below.map StageEvent.removed ++ [.removed path], ¬ e.Resets p) →
        (s.remove path).2.prims[p]? = s.prims[p]? := by
      intro p hp
      by_cases hbelow : path = p ∨ path.isBelow p
      · have habsent : p ∉ s.prims := fun hin => hp _ (hmem p hin hbelow) rfl
        rw [hgone p hbelow, ExtTreeMap.getElem?_eq_none habsent]
      · exact hkept p hbelow
    refine ⟨below.map .removed ++ [.removed path], ?_, ?_, ?_, ?_⟩
    · simp only [remove, h, below, List.append_assoc]
    · intro p hp
      rw [hprims p hp]
    · intro p name hp _
      rw [authored?, hprims p hp, authored?]
    · intro p hp
      apply hgone
      simp only [below, List.mem_append, List.mem_map, List.mem_filter, StageEvent.removed.injEq,
        List.mem_singleton] at hp
      rcases hp with ⟨q, ⟨-, hbelow⟩, rfl⟩ | rfl
      · exact Or.inr hbelow
      · exact Or.inl rfl

theorem told_write {s t : Stage} {path : PrimPath} {name : String}
    {change : Attribute → Attribute} (h : s.write path name change = .ok t) :
    Told s t [.changed path name] where
  log := log_write h
  type p _ := by
    unfold write at h
    split at h
    · cases h
    · next prim hp =>
      cases h
      by_cases hpath : path = p
      · subst hpath
        simp [hp]
      · simp [ExtTreeMap.getElem?_insert, hpath]
  authored p other _ hother := by
    rw [authored?_write h, if_neg]
    rintro ⟨rfl, rfl⟩
    exact hother (List.mem_singleton_self _)
  gone p hp := by simp at hp

/-- A write tells of its attribute, and one that fails has nothing to tell. -/
theorem told_write_getD (s : Stage) (path : PrimPath) (name : String)
    (change : Attribute → Attribute) :
    ∃ events, Told s ((s.write path name change).toOption.getD s) events ∧
      ∀ e ∈ events, e = .changed path name := by
  cases h : s.write path name change with
  | error cause => exact ⟨[], Told.refl s, fun e he => by cases he⟩
  | ok t => exact ⟨_, told_write h, fun e he => List.mem_singleton.1 he⟩

/-- And so does clearing. -/
theorem told_clear (s : Stage) (path : PrimPath) (name : String) :
    ∃ events, Told s (((s.clear path name).toOption.map (·.2)).getD s) events ∧
      ∀ e ∈ events, e = .changed path name := by
  unfold clear
  split
  · exact ⟨[], Told.refl s, fun e he => by cases he⟩
  · next prim hp =>
    split
    · refine ⟨[.changed path name], ⟨rfl, fun p _ => ?_, fun p other _ hother => ?_, ?_⟩,
        fun e he => List.mem_singleton.1 he⟩
      · by_cases hpath : path = p
        · subst hpath
          simp [Except.toOption, hp]
        · simp [Except.toOption, ExtTreeMap.getElem?_insert, hpath]
      · by_cases hpath : path = p
        · subst hpath
          have hne : name ≠ other := fun heq => hother (by simp [heq])
          simp [Except.toOption, authored?, hp, ExtTreeMap.getElem?_erase, hne]
        · simp [Except.toOption, authored?, ExtTreeMap.getElem?_insert, hpath]
      · intro p hp
        simp at hp
    · exact ⟨[], Told.refl s, fun e he => by cases he⟩

/-- An edit of an attribute tells of nothing else. -/
theorem told_attribute (s : Stage) {e : Edit} {path : PrimPath} {name : String}
    (h : e.attribute? = some (path, name)) :
    ∃ events, Told s (s.edit e) events ∧ ∀ event ∈ events, event = .changed path name := by
  cases e with
  | define path type => cases h
  | remove path => cases h
  | setFallback path name value =>
    cases h
    exact told_write_getD s path name _
  | setSample path name time value =>
    cases h
    exact told_write_getD s path name _
  | setClips path name clips =>
    cases h
    exact told_write_getD s path name _
  | clear path name =>
    cases h
    exact told_clear s path name

/-- **Every edit is told in full.** -/
theorem told_edit (s : Stage) (e : Edit) : ∃ events, Told s (s.edit e) events := by
  cases h : e.attribute? with
  | some target =>
    obtain ⟨events, htold, -⟩ := told_attribute s h
    exact ⟨events, htold⟩
  | none =>
    cases e with
    | define path type => exact ⟨_, told_define s path type⟩
    | remove path => exact told_remove s path
    | setFallback path name value => cases h
    | setSample path name time value => cases h
    | setClips path name clips => cases h
    | clear path name => cases h

/-- A prim that is told of nothing keeps its type. -/
theorem Told.typeOf? {s t : Stage} {events : List StageEvent} (h : Told s t events) {p : PrimPath}
    (hp : ∀ e ∈ events, ¬ e.Resets p) : t.typeOf? p = s.typeOf? p := by
  rw [Stage.typeOf?, h.type p hp, Stage.typeOf?]

end Stage

end CapsuleImaging
