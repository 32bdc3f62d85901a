import CapsuleImaging.Proofs.Scene.History

/-!
# Edits step by step

An edit reads the stage, begins a record that is not there, writes, drops prims one at a time, and
logs. Here it is a **procedure**, a sequence of such steps on a stage that is changed in place: when
a step fails, whatever the steps before it did stays done. `perform_ofEdit` shows that such an edit
comes to the same as `Stage.edit`, in its answer and in the stage. So an edit that fails has done
nothing before it fails, and the loop over what lies below a removed prim leaves exactly what one
pass over the stage leaves.

With what the log tells of a run of edits this is `every_change_logged`: there is no silent change.
-/

namespace CapsuleImaging

open Std

/-- Steps on a stage in place, with an answer. -/
abbrev Procedure := ExceptT StageError (StateM Stage)

/-- What an edit answers when it succeeds. -/
inductive Reply where
  | done
  /-- The prim that was removed, if there was one. -/
  | removed (prim : Option PrimRecord)
  /-- Whether the attribute had been authored. -/
  | cleared (authored : Bool)

/-- What a stage answers to an edit. -/
def Stage.answer (s : Stage) : Edit → Except StageError Reply
  | .define _ _ => .ok .done
  | .remove path => .ok (.removed (s.remove path).1)
  | .setFallback path name value => (s.setFallback path name value).map fun _ => .done
  | .setSample path name time value => (s.setSample path name time value).map fun _ => .done
  | .setClips path name clips => (s.setClips path name clips).map fun _ => .done
  | .clear path name => (s.clear path name).map fun (authored, _) => .cleared authored

namespace Procedure

variable {α β : Type}

/-- What a procedure answers, and what it makes of a stage. -/
def perform (steps : Procedure α) (s : Stage) : Except StageError α × Stage :=
  StateT.run (ExceptT.run steps) s

/-! ## Steps in sequence -/

@[simp]
theorem perform_pure (a : α) (s : Stage) : perform (pure a) s = (.ok a, s) := rfl

@[simp]
theorem perform_throw (cause : StageError) (s : Stage) :
    perform (throw cause : Procedure α) s = (.error cause, s) := rfl

@[simp]
theorem perform_get (s : Stage) : perform get s = (.ok s, s) := rfl

@[simp]
theorem perform_modify (change : Stage → Stage) (s : Stage) :
    perform (modify change) s = (.ok (), change s) := rfl

/-- **A step that fails is the last**, and the stage stays as that step found it. -/
@[simp]
theorem perform_bind (steps : Procedure α) (next : α → Procedure β) (s : Stage) :
    perform (steps >>= next) s = match perform steps s with
      | (.ok a, t) => perform (next a) t
      | (.error cause, t) => (.error cause, t) := by
  unfold perform ExceptT.run StateT.run
  simp only [bind, ExceptT.bind, ExceptT.mk, StateT.bind, ExceptT.bindCont]
  cases steps s with
  | mk answer t => cases answer <;> rfl

/-! ## The steps -/

/-- Log an event. -/
def announce (e : StageEvent) : Procedure Unit :=
  modify fun s => { s with log := s.log ++ [e] }

/-- Put a prim at a path. -/
def store (path : PrimPath) (prim : PrimRecord) : Procedure Unit :=
  modify fun s => { s with prims := s.prims.insert path prim }

/-- Take the prim at a path away. -/
def discard (path : PrimPath) : Procedure Unit :=
  modify fun s => { s with prims := s.prims.erase path }

/-- The prim at a path, which has to be there. -/
def prim (path : PrimPath) : Procedure PrimRecord := do
  match (← get).prims[path]? with
  | some prim => return prim
  | none => throw (.primNotFound path)

/-- What is authored for an attribute. Where nothing is, an empty record is begun, and is there
from now on. -/
def begun (path : PrimPath) (name : String) : Procedure Attribute := do
  let prim ← prim path
  let authored := prim.attributes[name]?.getD {}
  store path { prim with attributes := prim.attributes.insert name authored }
  return authored

/-- Change what is authored for an attribute. -/
def author (path : PrimPath) (name : String) (change : Attribute → Attribute) :
    Procedure Unit := do
  let authored ← begun path name
  let prim ← prim path
  store path { prim with attributes := prim.attributes.insert name (change authored) }
  announce (.changed path name)

/-- Define a prim or give it another type. -/
def define (path : PrimPath) (type : String) : Procedure Unit := do
  match (← get).prims[path]? with
  | some prim => store path { prim with type }
  | none => store path ⟨type, ∅⟩
  announce (.defined path type)

/-- Take prims away one after another, logging each. -/
def discardEach : List PrimPath → Procedure Unit
  | [] => return ()
  | path :: rest => do
    discard path
    announce (.removed path)
    discardEach rest

/-- Remove a prim, then what lies below it. -/
def remove (path : PrimPath) : Procedure (Option PrimRecord) := do
  match (← get).prims[path]? with
  | none => return none
  | some prim =>
    discard path
    discardEach ((← get).prims.keys.filter path.isBelow)
    announce (.removed path)
    return some prim

/-- Clear an attribute, and log it if there was anything to clear. -/
def clear (path : PrimPath) (name : String) : Procedure Bool := do
  let prim ← prim path
  store path { prim with attributes := prim.attributes.erase name }
  if name ∈ prim.attributes then
    announce (.changed path name)
    return true
  else
    return false

/-- **An edit, step by step.** -/
def ofEdit : Edit → Procedure Reply
  | .define path type => do define path type; return .done
  | .remove path => do return .removed (← remove path)
  | .setFallback path name value => do
    author path name fun a => { a with fallback := some value }
    return .done
  | .setSample path name time value => do
    author path name fun a => a.setSample time value
    return .done
  | .setClips path name clips => do author path name fun a => { a with clips }; return .done
  | .clear path name => do return .cleared (← clear path name)

/-! ## What the steps come to -/

section Maps

variable {κ ν : Type} [Ord κ] [TransOrd κ] [LawfulEqOrd κ] {m : ExtTreeMap κ ν} {k : κ}

/-- What is put at a key last is there. -/
theorem insert_insert (v w : ν) : (m.insert k v).insert k w = m.insert k w := by
  ext
  grind

/-- What is there already can be put there. -/
theorem insert_of_getElem? {v : ν} (h : m[k]? = some v) : m.insert k v = m := by
  ext
  grind

/-- What is not there can be taken away. -/
theorem erase_of_notMem (h : k ∉ m) : m.erase k = m := by
  ext
  grind

theorem getElem?_foldl_erase [DecidableEq κ] (keys : List κ) (q : κ) :
    (keys.foldl ExtTreeMap.erase m)[q]? = if q ∈ keys then none else m[q]? := by
  induction keys generalizing m with
  | nil => simp
  | cons key rest ih =>
    rw [List.foldl_cons, ih]
    grind

end Maps

variable {s : Stage} {path : PrimPath}

/-- Whether the prim is changed in place or put anew, the same prim is put. -/
theorem perform_define (type : String) :
    perform (define path type) s = (.ok (), s.define path type) := by
  have hput : s.prims.insert path ⟨type, (s.prims[path]?.map (·.attributes)).getD ∅⟩ =
      (s.define path type).prims := by
    ext1 q
    simp only [Stage.prims_define, ExtTreeMap.getElem?_insert, Std.compare_eq_iff_eq]
  cases h : s.prims[path]? with
  | none =>
    rw [h, Option.map_none, Option.getD_none] at hput
    simp only [define, perform_bind, perform_get, h, store, announce, perform_modify, hput]
    rfl
  | some prim =>
    rw [h, Option.map_some, Option.getD_some] at hput
    simp only [define, perform_bind, perform_get, h, store, announce, perform_modify, hput]
    rfl

theorem perform_author (name : String) (change : Attribute → Attribute) :
    perform (author path name change) s = match s.write path name change with
      | .ok t => (.ok (), t)
      | .error cause => (.error cause, s) := by
  unfold Stage.write
  cases h : s.prims[path]? with
  | none => simp only [author, begun, prim, perform_bind, perform_get, h, perform_throw]
  | some prim =>
    -- the record that is begun is overwritten by the record that is written
    simp only [author, begun, Procedure.prim, store, announce, perform_bind, perform_get, h,
      perform_pure, perform_modify, ExtTreeMap.getElem?_insert_self, insert_insert]

theorem perform_discardEach (paths : List PrimPath) :
    perform (discardEach paths) s =
      (.ok (), ⟨paths.foldl ExtTreeMap.erase s.prims, s.log ++ paths.map .removed⟩) := by
  induction paths generalizing s with
  | nil =>
    rw [discardEach, perform_pure, List.foldl_nil, List.map_nil, List.append_nil]
  | cons path rest ih =>
    simp only [discardEach, perform_bind, discard, announce, perform_modify, ih, List.foldl_cons,
      List.map_cons, List.append_assoc, List.singleton_append]

/-- The loop over what lies below leaves what one pass over the stage leaves. -/
theorem perform_remove :
    perform (remove path) s = (.ok (s.remove path).1, (s.remove path).2) := by
  unfold Stage.remove
  cases h : s.prims[path]? with
  | none => simp only [remove, perform_bind, perform_get, h, perform_pure]
  | some prim =>
    have hprims : ((s.prims.erase path).keys.filter path.isBelow).foldl ExtTreeMap.erase
        (s.prims.erase path) = (s.prims.erase path).filter fun q _ => !path.isBelow q := by
      ext1 q
      rw [getElem?_foldl_erase]
      grind
    simp only [remove, perform_bind, perform_get, h, discard, announce, perform_modify,
      perform_discardEach, perform_pure, hprims]

theorem perform_clear (name : String) :
    perform (clear path name) s = match s.clear path name with
      | .ok (authored, t) => (.ok authored, t)
      | .error cause => (.error cause, s) := by
  unfold Stage.clear
  cases h : s.prims[path]? with
  | none => simp only [clear, prim, perform_bind, perform_get, h, perform_throw]
  | some prim =>
    simp only [clear, Procedure.prim, perform_bind, perform_get, h, perform_pure, store,
      perform_modify]
    by_cases hname : name ∈ prim.attributes
    · rw [if_pos hname, if_pos hname]
      simp only [announce, perform_bind, perform_modify, perform_pure]
    · -- nothing is authored, so the prim is stored as it was
      rw [if_neg hname, if_neg hname, erase_of_notMem hname, insert_of_getElem? h]
      rfl

/-- **Step by step an edit comes to the same**, in what it answers and in what it leaves. -/
theorem perform_ofEdit (e : Edit) : perform (ofEdit e) s = (s.answer e, s.edit e) := by
  have hauthor : ∀ (path : PrimPath) (name : String) (change : Attribute → Attribute),
      perform (do author path name change; return .done) s =
        ((s.write path name change).map fun _ => Reply.done,
          (s.write path name change).toOption.getD s) := by
    intro path name change
    rw [perform_bind, perform_author]
    cases s.write path name change <;> rfl
  cases e with
  | define path type =>
    rw [ofEdit, perform_bind, perform_define]
    rfl
  | remove path =>
    rw [ofEdit, perform_bind, perform_remove]
    rfl
  | setFallback path name value => exact hauthor path name _
  | setSample path name time value => exact hauthor path name _
  | setClips path name clips => exact hauthor path name _
  | clear path name =>
    rw [ofEdit, perform_bind, perform_clear, Stage.answer, Stage.edit]
    cases s.clear path name <;> rfl

end Procedure

namespace Stage

/-- **An edit that does not answer that it did something did nothing.** -/
theorem edit_eq_or_answer (s : Stage) (e : Edit) :
    s.edit e = s ∨ s.answer e = .ok .done ∨ (∃ prim, s.answer e = .ok (.removed (some prim))) ∨
      s.answer e = .ok (.cleared true) := by
  have hwrite : ∀ (path : PrimPath) (name : String) (change : Attribute → Attribute),
      (s.write path name change).toOption.getD s = s ∨
        (s.write path name change).map (fun _ => Reply.done) = .ok .done := by
    intro path name change
    cases s.write path name change with
    | error cause => exact Or.inl rfl
    | ok t => exact Or.inr rfl
  cases e with
  | define path type => exact Or.inr (Or.inl rfl)
  | remove path =>
    cases h : s.prims[path]? with
    | none =>
      left
      rw [edit, remove_of_absent h]
    | some prim =>
      right; right; left
      exact ⟨prim, by rw [answer, remove, h]⟩
  | setFallback path name value => exact (hwrite path name _).imp_right Or.inl
  | setSample path name time value => exact (hwrite path name _).imp_right Or.inl
  | setClips path name clips => exact (hwrite path name _).imp_right Or.inl
  | clear path name =>
    cases h : s.prims[path]? with
    | none =>
      left
      simp only [edit, clear, h]
      rfl
    | some prim =>
      by_cases hname : name ∈ prim.attributes
      · right; right; right
        simp only [answer, clear, h, if_pos hname]
        rfl
      · left
        simp only [edit, clear, h, if_neg hname]
        rfl

/-- **There is no silent change.** A run of edits appends its events to the log; a prim that none of
them resets is there as before and with its type, and of its attributes each that none of them is
about holds what it held. And an edit that fails, finds no prim to remove or nothing to clear leaves
the stage and its log as they were, also where it is done step by step and in place. -/
theorem every_change_logged (s : Stage) :
    (∀ edits : List Edit, ∃ events, (s.editAll edits).log = s.log ++ events ∧
      ∀ p, (∀ e ∈ events, ¬ e.Resets p) →
        (s.editAll edits).prims[p]?.map (·.type) = s.prims[p]?.map (·.type) ∧
        ∀ name, .changed p name ∉ events →
          (s.editAll edits).authored? p name = s.authored? p name) ∧
    ∀ e : Edit, Procedure.perform (.ofEdit e) s = (s.answer e, s.edit e) ∧
      ((∃ cause, s.answer e = .error cause) ∨ s.answer e = .ok (.removed none) ∨
        s.answer e = .ok (.cleared false) → s.edit e = s) := by
  refine ⟨fun edits => ?_, fun e => ⟨Procedure.perform_ofEdit e, fun hidle => ?_⟩⟩
  · obtain ⟨events, hrecounted⟩ := recounted_editAll s edits
    refine ⟨events, hrecounted.log, fun p hquiet => ⟨hrecounted.type hquiet, fun name hname => ?_⟩⟩
    exact hrecounted.authored hquiet hname
  · refine (edit_eq_or_answer s e).resolve_right fun hdid => ?_
    -- an answer that says that something was done is none of the three
    rcases hdid with hdone | ⟨prim, hremoved⟩ | hcleared
    · rw [hdone] at hidle
      simp at hidle
    · rw [hremoved] at hidle
      simp at hidle
    · rw [hcleared] at hidle
      simp at hidle

/-- A prim with a prim below it, and one beside them. -/
def smallScene : Stage :=
  (empty.editAll [.define ⟨"/a"⟩ "Capsule", .define ⟨"/a/b"⟩ "Capsule", .define ⟨"/d"⟩ "Scope",
    .setFallback ⟨"/d"⟩ "size" (.double 2)]).drain.2

/-- Edits that remove a prim with the prim below it, define it again, write to the one that is gone,
and write to the prim beside them. -/
def replacing : List Edit :=
  [.remove ⟨"/a"⟩, .define ⟨"/a"⟩ "Capsule_1", .setFallback ⟨"/a/b"⟩ "height" (.double 1),
    .setClips ⟨"/d"⟩ "shade" true]

theorem every_change_logged_replacing :
    (smallScene.editAll replacing).log = [.removed ⟨"/a/b"⟩, .removed ⟨"/a"⟩,
        .defined ⟨"/a"⟩ "Capsule_1", .changed ⟨"/d"⟩ "shade"] ∧
      (smallScene.editAll replacing).authored? ⟨"/d"⟩ "size" =
        smallScene.authored? ⟨"/d"⟩ "size" ∧
      smallScene.edit (.clear ⟨"/d"⟩ "shade") = smallScene := by
  have hlog : (smallScene.editAll replacing).log = [.removed ⟨"/a/b"⟩, .removed ⟨"/a"⟩,
      .defined ⟨"/a"⟩ "Capsule_1", .changed ⟨"/d"⟩ "shade"] := by decide +kernel
  obtain ⟨hruns, hedits⟩ := every_change_logged smallScene
  obtain ⟨events, happend, hkept⟩ := hruns replacing
  have hevents : events = [.removed ⟨"/a/b"⟩, .removed ⟨"/a"⟩, .defined ⟨"/a"⟩ "Capsule_1",
      .changed ⟨"/d"⟩ "shade"] := happend.symm.trans hlog
  subst hevents
  refine ⟨hlog, ?_, ?_⟩
  · exact (hkept ⟨"/d"⟩ (by decide)).2 "size" (by decide)
  · exact (hedits (.clear ⟨"/d"⟩ "shade")).2 (Or.inr (Or.inr rfl))

end Stage

end CapsuleImaging
