import CapsuleImaging.Proofs.Change.Rules
import CapsuleImaging.Proofs.Change.Tracking
import CapsuleImaging.Proofs.Scene.History
import Mathlib.Data.List.Basic
import Mathlib.Data.List.Induction
import Mathlib.Data.List.Nodup

/-!
# What is learned in spite of skipping

A check whose category is known to vary is skipped. Still the record ends as if every question had
been asked: after any checks, whatever sets they are for, it has what it had and the sets whose
attribute varies (`isUnion_run`), and that is all that asking without skipping could find, in any
order (`isUnion_askAll`).

What skipping saves is told by the questions. Where each check is for a single category, the ones
that are asked are those whose category was not known at first and was found by none before them
(`asked_run`). For a capsule the checks are read off the names of its attributes
(`mem_capsuleChecks_iff`).
-/

namespace CapsuleImaging

namespace DirtyBits

variable {r s a c : DirtyBits} {part : DirtyBits → Prop}

/-- A set is another together with all the sets that have a property. -/
def IsUnion (r a : DirtyBits) (part : DirtyBits → Prop) : Prop :=
  ∀ i : Nat, r.word.getLsbD i ↔ a.word.getLsbD i ∨ ∃ c, part c ∧ c.word.getLsbD i

theorem eq_of_bits (h : ∀ i : Nat, r.word.getLsbD i ↔ s.word.getLsbD i) : r = s := by
  have hword : r.word = s.word := by
    apply BitVec.eq_of_getLsbD_eq
    intro i _
    rw [Bool.eq_iff_iff, h i]
  obtain ⟨word⟩ := r
  exact congrArg mk hword

/-- There is one such set only. -/
theorem IsUnion.unique (hr : r.IsUnion a part) (hs : s.IsUnion a part) : r = s :=
  eq_of_bits fun i => (hr i).trans (hs i).symm

theorem IsUnion.congr {part' : DirtyBits → Prop} (hr : r.IsUnion a part)
    (h : ∀ c, part c ↔ part' c) : r.IsUnion a part' := by
  intro i
  simp only [hr i, h]

theorem IsUnion.contains_iff (hr : r.IsUnion a part) (hc : c.IsCategory) :
    r.contains c ↔ a.contains c ∨ ∃ d, part d ∧ d.contains c := by
  obtain ⟨i, -, hbit⟩ := hc.exists_bit
  simp only [hbit]
  exact hr i

end DirtyBits

namespace Stage

variable {s : Stage} {path : PrimPath} {name : String}

/-- What may vary is authored. -/
theorem mem_attributeNames_of_mayVary (h : s.mayVary path name) :
    name ∈ s.attributeNames path := by
  rw [mem_attributeNames_iff]
  unfold mayVary at h
  cases hauthored : s.authored? path name with
  | none => simp [hauthored] at h
  | some a => rfl

end Stage

namespace Variability

open DirtyBits

/-! ## Checks one by one -/

/-- A check that is asked for: an attribute of a prim, and what varies if it does. -/
structure Call where
  stage : Stage
  path : PrimPath
  name : String
  category : DirtyBits

namespace Call

/-- A check of one prim. -/
def on (stage : Stage) (path : PrimPath) (check : String × DirtyBits) : Call :=
  ⟨stage, path, check.1, check.2⟩

/-- What the stage answers. -/
def varies (c : Call) : Bool :=
  c.stage.mayVary c.path c.name

/-- What the stage is asked. -/
def query (c : Call) : Query :=
  ⟨c.path, c.name⟩

end Call

variable {v : Variability} {calls earlier : List Call} {c : Call}

/-- Make some checks, on any stages. -/
def run (v : Variability) (calls : List Call) : Variability :=
  calls.foldl (fun v c => v.check c.stage c.path c.name c.category) v

/-- Make a check by asking the stage, whatever is known. -/
def ask (v : Variability) (c : Call) : Variability :=
  let asked : Variability := { v with asked := v.asked ++ [c.query] }
  if c.varies then asked.mark c.category else asked

/-- **The plain way**: ask about everything. -/
def askAll (v : Variability) (calls : List Call) : Variability :=
  calls.foldl ask v

theorem checkAll_eq_run (stage : Stage) (path : PrimPath) (checks : List (String × DirtyBits)) :
    v.checkAll stage path checks = v.run (checks.map (Call.on stage path)) := by
  rw [run, List.foldl_map]
  rfl

/-- What some checks of one prim find, by the names of the attributes. -/
theorem exists_varies_on_iff (stage : Stage) (path : PrimPath)
    (checks : List (String × DirtyBits)) (category : DirtyBits) :
    (∃ c ∈ checks.map (Call.on stage path), c.varies ∧ c.category = category) ↔
      ∃ name, (name, category) ∈ checks ∧ stage.mayVary path name := by
  simp only [List.mem_map, exists_exists_and_eq_and]
  constructor
  · rintro ⟨⟨name, _⟩, hcheck, hvary, rfl⟩
    exact ⟨name, hcheck, hvary⟩
  · rintro ⟨name, hcheck, hvary⟩
    exact ⟨(name, category), hcheck, hvary, rfl⟩

theorem run_concat : v.run (calls ++ [c]) =
    (v.run calls).check c.stage c.path c.name c.category := by
  rw [run, List.foldl_append]
  rfl

theorem getLsbD_ask (i : Nat) : (v.ask c).varying.word.getLsbD i ↔
    v.varying.word.getLsbD i ∨ c.varies ∧ c.category.word.getLsbD i := by
  unfold ask
  dsimp only
  split
  · next hvary => rw [mark, word_union, BitVec.getLsbD_or, Bool.or_eq_true, and_iff_right hvary]
  · next hvary => rw [or_iff_left fun h => hvary h.1]

/-- Skipping makes no difference to what is known. -/
theorem varying_check :
    (v.check c.stage c.path c.name c.category).varying = (v.ask c).varying := by
  unfold check
  split
  · next hknown =>
    -- asking could have found only what the record has already
    refine eq_of_bits fun i => ?_
    rw [getLsbD_ask, or_iff_left_of_imp fun h => DirtyBits.contains_iff.1 hknown i h.2]
  · rfl

/-- What each check adds to the record, all of them together add. -/
theorem isUnion_foldl {step : Variability → Call → Variability}
    (hstep : ∀ v c i, (step v c).varying.word.getLsbD i ↔
      v.varying.word.getLsbD i ∨ c.varies ∧ c.category.word.getLsbD i) (calls : List Call) :
    (calls.foldl step v).varying.IsUnion v.varying
      fun category => ∃ c ∈ calls, c.varies ∧ c.category = category := by
  intro i
  have hbits : (calls.foldl step v).varying.word.getLsbD i ↔
      v.varying.word.getLsbD i ∨ ∃ c ∈ calls, c.varies ∧ c.category.word.getLsbD i := by
    induction calls generalizing v with
    | nil => simp
    | cons c rest ih =>
      rw [List.foldl_cons, ih, hstep, or_assoc]
      simp only [List.mem_cons, exists_eq_or_imp]
  rw [hbits]
  refine or_congr Iff.rfl ⟨?_, ?_⟩
  · rintro ⟨c, hc, hvary, hbit⟩
    exact ⟨c.category, ⟨c, hc, hvary, rfl⟩, hbit⟩
  · rintro ⟨_, ⟨c, hc, hvary, rfl⟩, hbit⟩
    exact ⟨c, hc, hvary, hbit⟩

theorem isUnion_askAll (calls : List Call) : (v.askAll calls).varying.IsUnion v.varying
    fun category => ∃ c ∈ calls, c.varies ∧ c.category = category :=
  isUnion_foldl (fun _ _ => getLsbD_ask) calls

/-- **Any checks end with what was known and what varies**, for any sets of categories. -/
theorem isUnion_run (calls : List Call) : (v.run calls).varying.IsUnion v.varying
    fun category => ∃ c ∈ calls, c.varies ∧ c.category = category :=
  isUnion_foldl (fun v c i => by rw [varying_check, getLsbD_ask]) calls

/-! ## Which questions are asked -/

/-- There is something to learn from a check after some others: its category was not known at
first, and none of the others has found it. -/
def Unsettled (v : Variability) (earlier : List Call) (c : Call) : Prop :=
  ¬ v.isVarying c.category ∧ ∀ e ∈ earlier, e.category = c.category → ¬ e.varies

instance : Decidable (v.Unsettled earlier c) :=
  inferInstanceAs (Decidable (_ ∧ _))

/-- The same for checks of one prim, by the names of the attributes. -/
theorem unsettled_on_iff {stage : Stage} {path : PrimPath} {checks : List (String × DirtyBits)}
    {name : String} {category : DirtyBits} :
    v.Unsettled (checks.map (Call.on stage path)) (Call.on stage path (name, category)) ↔
      ¬ v.isVarying category ∧
        ∀ other, (other, category) ∈ checks → ¬ stage.mayVary path other := by
  refine and_congr Iff.rfl ⟨?_, ?_⟩
  · intro h other hother
    exact h _ (List.mem_map_of_mem hother) rfl
  · intro h e he hcategory
    obtain ⟨⟨other, _⟩, hother, rfl⟩ := List.mem_map.1 he
    obtain rfl : _ = category := hcategory
    exact h other hother

/-- The checks from which there is something to learn when their turn comes. -/
def unsettledAmong (v : Variability) (calls : List Call) : List Call :=
  (calls.zipIdx.filter fun (c, i) => v.Unsettled (calls.take i) c).map (·.1)

/-- What comes later does not matter to a check. -/
theorem unsettledAmong_concat : v.unsettledAmong (calls ++ [c]) =
    v.unsettledAmong calls ++ if v.Unsettled calls c then [c] else [] := by
  have hbefore : (calls.zipIdx.filter fun (e, i) => v.Unsettled ((calls ++ [c]).take i) e) =
      calls.zipIdx.filter fun (e, i) => v.Unsettled (calls.take i) e := by
    apply List.filter_congr
    rintro ⟨e, i⟩ hmem
    have hi : i ≤ calls.length := by
      have := List.snd_lt_of_mem_zipIdx hmem
      omega
    simp only [List.take_append_of_le_length hi]
  rw [unsettledAmong, unsettledAmong, List.zipIdx_append, List.filter_append, List.map_append,
    hbefore]
  congr 1
  simp only [List.zipIdx_singleton, Nat.zero_add, List.filter_cons, List.filter_nil,
    List.take_left, decide_eq_true_eq]
  split <;> rfl

theorem asked_check : (v.check c.stage c.path c.name c.category).asked =
    v.asked ++ if v.isVarying c.category then [] else [c.query] := by
  unfold check
  split
  · rw [List.append_nil]
  · dsimp only
    split <;> rfl

/-- A category is known after some checks exactly if it was at first, or one of them found it. -/
theorem isVarying_run_iff (hc : c.category.IsCategory)
    (hcalls : ∀ e ∈ calls, e.category.IsCategory) :
    (v.run calls).isVarying c.category ↔ ¬ v.Unsettled calls c := by
  rw [isVarying, (isUnion_run calls).contains_iff hc, Unsettled, not_and_or, not_not]
  refine or_congr Iff.rfl ⟨?_, ?_⟩
  · rintro ⟨_, ⟨e, he, hvary, rfl⟩, hcontains⟩ hnone
    exact hnone e he ((hc.contains_iff_eq (hcalls e he)).1 hcontains) hvary
  · intro h
    push Not at h
    obtain ⟨e, he, heq, hvary⟩ := h
    exact ⟨e.category, ⟨e, he, hvary, rfl⟩, heq ▸ contains_self _⟩

/-- **A question is asked exactly where there is something to learn.** -/
theorem asked_run (hcalls : ∀ e ∈ calls, e.category.IsCategory) :
    (v.run calls).asked = v.asked ++ (v.unsettledAmong calls).map Call.query := by
  induction calls using List.reverseRecOn with
  | nil => simp [run, unsettledAmong]
  | append_singleton calls c ih =>
    have hbefore : ∀ e ∈ calls, e.category.IsCategory := fun e he =>
      hcalls e (List.mem_append_left _ he)
    have hknown := isVarying_run_iff (v := v) (hcalls c (by simp)) hbefore
    rw [run_concat, asked_check, ih hbefore, unsettledAmong_concat, List.map_append,
      ← List.append_assoc]
    congr 1
    by_cases h : v.Unsettled calls c
    · simp [h, hknown]
    · simp [h, hknown]

/-- What remains to be asked is part of what there is to ask, in the same order. -/
theorem unsettledAmong_sublist : (v.unsettledAmong calls).Sublist calls := by
  have hfilter : (v.unsettledAmong calls).Sublist (calls.zipIdx.map Prod.fst) :=
    List.filter_sublist.map Prod.fst
  rwa [List.zipIdx_map_fst] at hfilter

/-- Where no question occurs twice, one remains exactly if its check has something to learn. -/
theorem query_mem_unsettledAmong_iff {later : List Call}
    (hnodup : ((earlier ++ c :: later).map Call.query).Nodup) :
    c.query ∈ (v.unsettledAmong (earlier ++ c :: later)).map Call.query ↔
      v.Unsettled earlier c := by
  have hplace : (earlier ++ c :: later)[earlier.length]? = some c := by simp
  simp only [unsettledAmong, List.map_map, List.mem_map, List.mem_filter, Function.comp_apply,
    List.mem_zipIdx_iff_getElem?, decide_eq_true_eq]
  constructor
  · rintro ⟨⟨e, i⟩, ⟨he, hunsettled⟩, hquery⟩
    -- the question has one place only
    have hi : i = earlier.length := by
      apply (List.getElem?_inj ?_ hnodup).1
      · simp only [List.getElem?_map, hplace, he, Option.map_some, hquery]
      · rw [List.length_map]
        exact (List.getElem?_eq_some_iff.1 he).1
    subst hi
    obtain rfl : c = e := Option.some.inj (hplace.symm.trans he)
    rwa [List.take_left] at hunsettled
  · intro h
    exact ⟨(c, earlier.length), ⟨hplace, by rwa [List.take_left]⟩, rfl⟩

/-! ## Capsules -/

variable {stage : Stage} {path : PrimPath}

/-- The attributes by which a capsule may vary, each with its category. -/
inductive Contributes (stage : Stage) (path : PrimPath) : String → DirtyBits → Prop
  /-- The order of the transforms, if it is authored. -/
  | order : "xformOpOrder" ∈ stage.attributeNames path →
      Contributes stage path "xformOpOrder" transform
  /-- A transform that is authored. -/
  | op (rest : String) : "xformOp:" ++ rest ∈ stage.attributeNames path →
      Contributes stage path ("xformOp:" ++ rest) transform
  /-- The visibility, if it is authored. -/
  | visibility : "visibility" ∈ stage.attributeNames path →
      Contributes stage path "visibility" visibility
  /-- The extent, if it is authored. -/
  | extent : "extent" ∈ stage.attributeNames path →
      Contributes stage path "extent" extent
  /-- A primvar that is authored. -/
  | primvar (rest : String) : "primvars:" ++ rest ∈ stage.attributeNames path →
      Contributes stage path ("primvars:" ++ rest) primvar
  /-- What shapes a capsule of the prim's schema, authored or not. -/
  | shape (schema : CapsuleSchema) (a : ShapeAttribute) :
      CapsuleSchema.of? stage path = some schema → a ∈ schema.shapeAttributes →
      Contributes stage path a.name points

/-- What there is to check on a capsule, in order. -/
def capsuleChecks (stage : Stage) (path : PrimPath) : List (String × DirtyBits) :=
  gprimChecks stage path ++ shapeChecks stage path

theorem trackCapsule_eq_run :
    v.trackCapsule stage path = v.run ((capsuleChecks stage path).map (Call.on stage path)) := by
  rw [← checkAll_eq_run, capsuleChecks, checkAll, List.foldl_append]
  rfl

theorem mem_gprimChecks_iff {name : String} {category : DirtyBits} :
    (name, category) ∈ gprimChecks stage path ↔ name ∈ stage.attributeNames path ∧
      ∃ rule ∈ propertyTable, rule.1.applies name ∧ rule.2 = category := by
  have hapart : propertyTable.Pairwise fun p q => NameRule.apart p.1 q.1 := by decide
  simp only [gprimChecks, List.mem_filterMap, Option.map_eq_some_iff, Prod.mk.injEq,
    ← NameRule.lookup?_eq_some_iff hapart]
  constructor
  · rintro ⟨_, hname, _, hlookup, rfl, rfl⟩
    exact ⟨hname, hlookup⟩
  · rintro ⟨hname, hlookup⟩
    exact ⟨name, hname, category, hlookup, rfl, rfl⟩

theorem mem_shapeChecks_iff {name : String} {category : DirtyBits} :
    (name, category) ∈ shapeChecks stage path ↔
      ∃ schema, CapsuleSchema.of? stage path = some schema ∧
        ∃ a ∈ schema.shapeAttributes, a.name = name ∧ points = category := by
  unfold shapeChecks
  cases CapsuleSchema.of? stage path with
  | none => simp
  | some schema => simp

/-- **The checks of a capsule are for the attributes by which it may vary.** -/
theorem mem_capsuleChecks_iff {name : String} {category : DirtyBits} :
    (name, category) ∈ capsuleChecks stage path ↔ Contributes stage path name category := by
  rw [capsuleChecks, List.mem_append, mem_gprimChecks_iff, mem_shapeChecks_iff]
  constructor
  · rintro (⟨hname, rule, hrule, happ, rfl⟩ | ⟨schema, hschema, a, ha, rfl, rfl⟩)
    · simp only [propertyTable, List.mem_cons, List.not_mem_nil, or_false] at hrule
      obtain rfl | rfl | rfl | rfl | rfl := hrule
      · obtain rfl := NameRule.applies_exactly.1 happ
        exact .order hname
      · obtain ⟨rest, rfl⟩ := NameRule.applies_startingWith.1 happ
        exact .op rest hname
      · obtain rfl := NameRule.applies_exactly.1 happ
        exact .visibility hname
      · obtain rfl := NameRule.applies_exactly.1 happ
        exact .extent hname
      · obtain ⟨rest, rfl⟩ := NameRule.applies_startingWith.1 happ
        exact .primvar rest hname
    · exact .shape schema a hschema ha
  · intro h
    cases h with
    | order hname =>
      exact Or.inl ⟨hname, (.exactly "xformOpOrder", _), by decide, by decide, rfl⟩
    | op rest hname =>
      exact Or.inl ⟨hname, (.startingWith "xformOp:", _), by decide,
        NameRule.applies_startingWith.2 ⟨rest, rfl⟩, rfl⟩
    | visibility hname =>
      exact Or.inl ⟨hname, (.exactly "visibility", _), by decide, by decide, rfl⟩
    | extent hname =>
      exact Or.inl ⟨hname, (.exactly "extent", _), by decide, by decide, rfl⟩
    | primvar rest hname =>
      exact Or.inl ⟨hname, (.startingWith "primvars:", _), by decide,
        NameRule.applies_startingWith.2 ⟨rest, rfl⟩, rfl⟩
    | shape schema a hschema ha => exact Or.inr ⟨schema, hschema, a, ha, rfl, rfl⟩

theorem Contributes.isCategory {name : String} {category : DirtyBits}
    (h : Contributes stage path name category) : category.IsCategory := by
  cases h with
  | order => exact isCategory_transform
  | op => exact isCategory_transform
  | visibility => exact isCategory_visibility
  | extent => exact isCategory_extent
  | primvar => exact isCategory_primvar
  | shape => exact isCategory_points

/-- What is tracked by a rule is made stale by it. -/
theorem mem_propertyTable_of_tracked :
    ∀ rule ∈ propertyTable, rule ∈ DirtyBits.propertyTable := by
  decide

/-- **No attribute of a capsule is checked twice.** -/
theorem nodup_capsuleChecks : ((capsuleChecks stage path).map (·.1)).Nodup := by
  have hauthored : (stage.attributeNames path).Nodup := by
    unfold Stage.attributeNames
    split
    · next prim _ => exact prim.attributes.nodup_keys
    · exact List.nodup_nil
  have hgprim : ((gprimChecks stage path).map (·.1)).Nodup := by
    rw [gprimChecks, List.map_filterMap]
    refine List.Nodup.filterMap (fun a a' b ha ha' => ?_) hauthored
    simp only [Option.map_map, Option.mem_def, Option.map_eq_some_iff,
      Function.comp_apply] at ha ha'
    obtain ⟨_, -, rfl⟩ := ha
    obtain ⟨_, -, rfl⟩ := ha'
    rfl
  have hshape : ((shapeChecks stage path).map (·.1)).Nodup := by
    unfold shapeChecks
    split
    · next schema _ =>
      rw [List.map_map]
      cases schema <;> decide
    · exact List.nodup_nil
  rw [capsuleChecks, List.map_append, List.nodup_append]
  refine ⟨hgprim, hshape, ?_⟩
  rintro name hname _ hother rfl
  obtain ⟨⟨_, _⟩, hmem, rfl⟩ := List.mem_map.1 hname
  obtain ⟨-, rule, hrule, happ, -⟩ := mem_gprimChecks_iff.1 hmem
  obtain ⟨⟨_, _⟩, hshaping, hsame⟩ := List.mem_map.1 hother
  obtain ⟨schema, -, a, -, rfl, -⟩ := mem_shapeChecks_iff.1 hshaping
  dsimp only at hsame
  rw [← hsame] at happ
  exact DirtyBits.not_applies_name a rule (mem_propertyTable_of_tracked rule hrule) happ

theorem nodup_queries :
    (((capsuleChecks stage path).map (Call.on stage path)).map Call.query).Nodup := by
  have hnames : ((capsuleChecks stage path).map (·.1)).Nodup := nodup_capsuleChecks
  have hinjective : Function.Injective (Query.mk path) := fun _ _ h => congrArg Query.name h
  have hqueries := hnames.map hinjective
  rwa [List.map_map] at hqueries ⊢

/-- **The record of a capsule** has what it had and each category by which some attribute varies. -/
theorem isUnion_trackCapsule (v : Variability) (stage : Stage) (path : PrimPath) :
    (v.trackCapsule stage path).varying.IsUnion v.varying
      fun category => ∃ name, Contributes stage path name category ∧ stage.mayVary path name := by
  rw [trackCapsule_eq_run]
  refine (isUnion_run _).congr fun category => ?_
  simp only [exists_varies_on_iff, mem_capsuleChecks_iff]

theorem asked_trackCapsule : (v.trackCapsule stage path).asked = v.asked ++
    (v.unsettledAmong ((capsuleChecks stage path).map (Call.on stage path))).map Call.query := by
  have hcategory : ∀ c ∈ (capsuleChecks stage path).map (Call.on stage path),
      c.category.IsCategory := by
    intro c hc
    obtain ⟨⟨name, category⟩, hcheck, rfl⟩ := List.mem_map.1 hc
    exact (mem_capsuleChecks_iff.1 hcheck).isCategory
  rw [trackCapsule_eq_run, asked_run hcategory]

/-- **Skipping spares questions and nothing else.** The record of a capsule has what it had and
each category by which some attribute varies, as it would if all of them were asked about in any
order. The questions are asked in turn, none of them twice, and one is asked exactly if its
category was not known at first and was found by no attribute before. -/
theorem trackCapsule_shortCircuits (v : Variability) (stage : Stage) (path : PrimPath) :
    (v.trackCapsule stage path).varying.IsUnion v.varying
      (fun category => ∃ name, Contributes stage path name category ∧ stage.mayVary path name) ∧
    (∀ order : List (String × DirtyBits),
      (∀ name category, (name, category) ∈ order ↔ Contributes stage path name category) →
      (v.askAll (order.map (Call.on stage path))).varying =
        (v.trackCapsule stage path).varying) ∧
    (∃ questions : List Query, (v.trackCapsule stage path).asked = v.asked ++ questions ∧
      questions.Sublist ((capsuleChecks stage path).map fun check => ⟨path, check.1⟩) ∧
      questions.Nodup ∧
      ∀ earlier name category later,
        capsuleChecks stage path = earlier ++ (name, category) :: later →
        (⟨path, name⟩ ∈ questions ↔ ¬ v.isVarying category ∧
          ∀ other, (other, category) ∈ earlier → ¬ stage.mayVary path other)) ∧
    (∀ name category,
      (name, category) ∈ capsuleChecks stage path ↔ Contributes stage path name category) ∧
    ∀ calls : List Call, (v.run calls).varying.IsUnion v.varying
      fun category => ∃ c ∈ calls, c.varies ∧ c.category = category := by
  have hunion := isUnion_trackCapsule v stage path
  refine ⟨hunion, fun order horder => ?_, ?_, fun _ _ => mem_capsuleChecks_iff, isUnion_run⟩
  · refine IsUnion.unique ((isUnion_askAll _).congr fun category => ?_) hunion
    simp only [exists_varies_on_iff, horder]
  · have hpart : ((v.unsettledAmong ((capsuleChecks stage path).map (Call.on stage path))).map
        Call.query).Sublist
          (((capsuleChecks stage path).map (Call.on stage path)).map Call.query) :=
      unsettledAmong_sublist.map Call.query
    refine ⟨_, asked_trackCapsule, ?_, nodup_queries.sublist hpart, ?_⟩
    · rw [List.map_map] at hpart
      exact hpart
    · intro earlier name category later hsplit
      have hnodup : (((earlier ++ (name, category) :: later).map (Call.on stage path)).map
          Call.query).Nodup := hsplit ▸ nodup_queries
      rw [List.map_append, List.map_cons] at hnodup
      rw [hsplit, List.map_append, List.map_cons, ← unsettled_on_iff]
      exact query_mem_unsettledAmong_iff hnodup

/-- A capsule that grows, with a visibility that may vary. -/
def growing : Stage :=
  .editAll .empty
    [.define ⟨"/c"⟩ "Capsule", .setClips ⟨"/c"⟩ "visibility" true,
      .setSample ⟨"/c"⟩ "height" 0 (.double 1), .setSample ⟨"/c"⟩ "height" 1 (.double 2),
      .setFallback ⟨"/c"⟩ "radius" (.double 3)]

/-- Of the visibility it is known at first that it varies. -/
theorem trackCapsule_shortCircuits_growing :
    (askAll ⟨.visibility, []⟩
        ((capsuleChecks growing ⟨"/c"⟩).reverse.map (Call.on growing ⟨"/c"⟩))).varying =
          .visibility ∪ .points ∧
      ⟨⟨"/c"⟩, "visibility"⟩ ∉ (trackCapsule ⟨.visibility, []⟩ growing ⟨"/c"⟩).asked ∧
      ⟨⟨"/c"⟩, "height"⟩ ∈ (trackCapsule ⟨.visibility, []⟩ growing ⟨"/c"⟩).asked ∧
      ⟨⟨"/c"⟩, "radius"⟩ ∉ (trackCapsule ⟨.visibility, []⟩ growing ⟨"/c"⟩).asked := by
  obtain ⟨-, hplain, ⟨questions, hasked, -, -, hiff⟩, hchecks, -⟩ :=
    trackCapsule_shortCircuits ⟨.visibility, []⟩ growing ⟨"/c"⟩
  have hlist : capsuleChecks growing ⟨"/c"⟩ = [("visibility", .visibility), ("height", .points),
      ("radius", .points), ("axis", .points)] := by
    decide +kernel
  have hvary : growing.mayVary ⟨"/c"⟩ "height" := by decide +kernel
  rw [hasked, List.nil_append]
  refine ⟨?_, fun h => ?_, ?_, fun h => ?_⟩
  · rw [hplain _ fun name category => List.mem_reverse.trans (hchecks name category)]
    decide +kernel
  · exact ((hiff [] _ _ _ hlist).1 h).1 (by decide)
  · refine (hiff [("visibility", .visibility)] _ _ _ hlist).2 ⟨by decide, fun other hother => ?_⟩
    cases List.mem_singleton.1 hother
  · exact ((hiff [("visibility", .visibility), ("height", .points)] _ _ _ hlist).1 h).2
      "height" (by decide) hvary

end Variability

end CapsuleImaging
