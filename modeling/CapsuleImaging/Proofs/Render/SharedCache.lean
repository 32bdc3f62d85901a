import CapsuleImaging.Proofs.Render.Invalidation
import CapsuleImaging.Proofs.Render.Population
import Mathlib.Data.Finset.Card

/-!
# What a shared cache adds

Connectivity is asked for in several ways: of a cache itself, by a grid or by a resolution and a
sweep; of an adapter; and of the data of a capsule. Whichever it is, the request has a **key**, the
slot of a cache and a grid, and all that it does is to ask the cache in that slot for that grid
(`CacheBank.serve_of_key?`). So a cache is known from the keys that were requested of it: a grid is
in it if it was there before or was requested (`getElem?_cache_serveAll`).

An imager asks its caches for nothing but what adapters of its registry have to deliver
(`Imager.caches_takeTurns`). With one adapter registered that is one grid.
-/

namespace CapsuleImaging

open Std

/-- A request for data, in any of the ways that may lead to a cache. -/
inductive Request where
  /-- Ask the cache in a slot for a grid. -/
  | grid (slot : Nat) (g : Grid)
  /-- Ask the cache in a slot for a resolution, with a sweep in degrees. -/
  | resolution (slot radial capAxial : Nat) (sweep : Float)
  /-- Ask an adapter for the connectivity of its prims. -/
  | adapter (a : CapsuleAdapter)
  /-- Fetch what is at a locator from the data of a capsule. -/
  | source (src : CapsuleSource) (l : Locator)

/-- The key of an adapter: its slot, and its resolution with whether its sweep closes. -/
def CapsuleAdapter.key (a : CapsuleAdapter) : Nat × Grid :=
  (a.slot, ⟨a.tessellation.radial, a.tessellation.capAxial, Sweep.closes a.tessellation.sweep⟩)

namespace Request

/-- **The key of a request**: the slot of the cache that it goes to and what it asks that cache
for. Other data than connectivity has no key. -/
def key? : Request → Option (Nat × Grid)
  | .grid slot g => some (slot, g)
  | .resolution slot radial capAxial sweep => some (slot, ⟨radial, capAxial, Sweep.closes sweep⟩)
  | .adapter a => some a.key
  | .source src l => if l = .topology then some src.adapter.key else none

/-- What a request without a key is about. -/
def other : Request → Option DataValue
  | .source src l => (CapsuleDatum.at? l).map (·.value src.params)
  | _ => none

/-- **The answer without any cache**: the connectivity of the key is built for each request. -/
def answer (r : Request) : Option DataValue :=
  match r.key? with
  | some (_, g) => some (.topology g.topology)
  | none => r.other

/-- The distinct grids that some requests ask the cache in a slot for. -/
def grids (slot : Nat) (requests : List Request) : Finset Grid :=
  (((requests.filterMap key?).filter (·.1 = slot)).map (·.2)).toFinset

theorem mem_grids {slot : Nat} {requests : List Request} {g : Grid} :
    g ∈ grids slot requests ↔ ∃ r ∈ requests, r.key? = some (slot, g) := by
  simp [grids]

/-- A request made through an adapter: of itself or of the data of one of its capsules. -/
inductive Through (a : CapsuleAdapter) : Request → Prop
  | adapter : Through a (.adapter a)
  | source (src : CapsuleSource) (l : Locator) (h : src.adapter = a) : Through a (.source src l)

/-- Through an adapter no other key is requested than its own. -/
theorem Through.eq_key {a : CapsuleAdapter} {r : Request} (h : r.Through a) {k : Nat × Grid}
    (hk : r.key? = some k) : k = a.key := by
  cases h with
  | adapter => exact (Option.some.inj hk).symm
  | source src l hsrc =>
    subst hsrc
    rw [key?] at hk
    split at hk
    · exact (Option.some.inj hk).symm
    · cases hk

end Request

namespace CapsuleDatum

/-- Connectivity is at its own locator only. -/
theorem at?_eq_topology_iff {l : Locator} : at? l = some .topology ↔ l = .topology := by
  constructor
  · intro h
    exact (locator_of_at? h).symm
  · rintro rfl
    decide

end CapsuleDatum

namespace CapsuleSource

/-- Fetching other data than connectivity leaves the caches alone. -/
theorem get_snd_of_ne {src : CapsuleSource} {l : Locator} (h : l ≠ .topology)
    (b : CacheBank) : (src.get b l).2 = b := by
  have hdatum : CapsuleDatum.at? l ≠ some .topology := fun ht =>
    h (CapsuleDatum.at?_eq_topology_iff.1 ht)
  unfold get
  cases hat : CapsuleDatum.at? l with
  | none => rfl
  | some d =>
    cases d with
    | topology => exact absurd hat hdatum
    | _ => rfl

end CapsuleSource

namespace TopologyCache

/-- The size of a cache, by any set that has the same grids. -/
theorem size_eq_card {c : TopologyCache} {grids : Finset Grid}
    (h : ∀ g, g ∈ c.entries ↔ g ∈ grids) : c.size = grids.card := by
  have hgrids : c.entries.keys.toFinset = grids := by
    ext g
    rw [List.mem_toFinset, ExtTreeMap.mem_keys, h]
  rw [← hgrids, List.toFinset_card_of_nodup c.entries.nodup_keys, ExtTreeMap.length_keys, size]

end TopologyCache

namespace CacheBank

/-- Answer a request from the caches. -/
def serve (b : CacheBank) : Request → Option DataValue × CacheBank
  | .grid slot g =>
    let (topology, b) := b.request slot g
    (some (.topology topology), b)
  | .resolution slot radial capAxial sweep =>
    let (topology, b) := b.request slot (.ofSweep radial capAxial sweep)
    (some (.topology topology), b)
  | .adapter a =>
    let (topology, b) := a.topology b
    (some (.topology topology), b)
  | .source src l => src.get b l

/-- Answer some requests, each from the caches as those before have left them. -/
def serveAll (b : CacheBank) : List Request → List (Option DataValue) × CacheBank
  | [] => ([], b)
  | r :: rest =>
    let (value, b) := b.serve r
    let (values, b) := b.serveAll rest
    (value :: values, b)

variable {b : CacheBank} {r : Request} {slot : Nat} {g : Grid}

/-! ## One request -/

/-- **All ways to ask for connectivity are one**: a request asks for its key. -/
theorem serve_of_key? (h : r.key? = some (slot, g)) :
    b.serve r = (some (.topology g.topology), (b.request slot g).2) := by
  have hrequest :
      b.serve r = (some (.topology (b.request slot g).1), (b.request slot g).2) := by
    cases r with
    | grid => cases h; rfl
    | resolution => cases h; rfl
    | adapter => cases h; rfl
    | source src l =>
      rw [Request.key?] at h
      split at h
      · next hl =>
        subst hl
        cases h
        rfl
      · cases h
  rw [hrequest, request_fst]

/-- A request without a key is answered without the caches. -/
theorem serve_of_key?_eq_none (h : r.key? = none) : b.serve r = (r.other, b) := by
  cases r with
  | source src l =>
    have hl : l ≠ .topology := by
      rintro rfl
      cases h
    exact Prod.ext (src.get_fst b l) (CapsuleSource.get_snd_of_ne hl b)
  | _ => cases h

/-- **One request is answered as without a cache**, whatever is in the caches. -/
theorem serve_fst (b : CacheBank) (r : Request) : (b.serve r).1 = r.answer := by
  unfold Request.answer
  split
  · next h => rw [serve_of_key? h]
  · next h => rw [serve_of_key?_eq_none h]

/-- **What one request leaves in the caches**: what was there, and its key. -/
theorem getElem?_cache_serve :
    ((b.serve r).2.cache slot).entries[g]? =
      if r.key? = some (slot, g) then some g.topology else (b.cache slot).entries[g]? := by
  cases hkey : r.key? with
  | none =>
    rw [serve_of_key?_eq_none hkey, if_neg (Option.some_ne_none _).symm]
  | some k =>
    obtain ⟨slot', g'⟩ := k
    rw [serve_of_key? hkey]
    simp only [cache_request, Option.some.injEq, Prod.mk.injEq]
    by_cases hslot : slot' = slot
    · subst hslot
      rw [if_pos rfl, TopologyCache.entries_request]
      by_cases hg : g' = g
      · subst hg
        simp
      · simp [hg]
    · rw [if_neg hslot, if_neg fun h => hslot h.1]

/-! ## Any requests -/

theorem serveAll_append (b : CacheBank) (requests more : List Request) :
    (b.serveAll (requests ++ more)).2 = ((b.serveAll requests).2.serveAll more).2 := by
  induction requests generalizing b with
  | nil => rfl
  | cons r rest ih => exact ih (b.serve r).2

/-- Any requests are answered as without a cache. -/
theorem serveAll_fst (b : CacheBank) (requests : List Request) :
    (b.serveAll requests).1 = requests.map Request.answer := by
  induction requests generalizing b with
  | nil => rfl
  | cons r rest ih => exact congrArg₂ List.cons (b.serve_fst r) (ih (b.serve r).2)

/-- **What any requests leave in the caches**: what was there, and their keys. -/
theorem getElem?_cache_serveAll {requests : List Request} :
    ((b.serveAll requests).2.cache slot).entries[g]? =
      if g ∈ Request.grids slot requests then some g.topology
      else (b.cache slot).entries[g]? := by
  simp only [Request.mem_grids]
  induction requests generalizing b with
  | nil => simp [serveAll]
  | cons r rest ih =>
    refine (ih (b := (b.serve r).2)).trans ?_
    rw [getElem?_cache_serve]
    by_cases hrest : ∃ r ∈ rest, r.key? = some (slot, g) <;>
      by_cases hr : r.key? = some (slot, g) <;> simp [hrest, hr]

/-- What is in a cache stays in it as it is. -/
theorem getElem?_cache_serveAll_of_some {m : MeshTopology} (requests : List Request)
    (h : (b.cache slot).entries[g]? = some m) :
    ((b.serveAll requests).2.cache slot).entries[g]? = some m := by
  rw [getElem?_cache_serveAll, h, (b.cache slot).generated g m h, ite_self]

/-- **A cache that was empty has what was requested of it**, and each grid once. -/
theorem size_cache_serveAll (h : b.cache slot = .empty) (requests : List Request) :
    ((b.serveAll requests).2.cache slot).size = (Request.grids slot requests).card := by
  refine TopologyCache.size_eq_card fun g => ?_
  rw [ExtTreeMap.mem_iff_isSome_getElem?, getElem?_cache_serveAll, h]
  by_cases hg : g ∈ Request.grids slot requests <;> simp [hg, TopologyCache.empty]

end CacheBank

/-! ## Imagers -/

/-- Whether prims of some type are imaged by an adapter. -/
def Registry.Offers (registry : Registry) (a : CapsuleAdapter) : Prop :=
  ∃ type, registry.adapterFor? type = some a

/-- A registry of one adapter offers no other. -/
theorem Registry.eq_of_offers_ofAdapter {a b : CapsuleAdapter}
    (h : (Registry.ofAdapter a).Offers b) : b = a := by
  obtain ⟨type, htype⟩ := h
  simp only [adapterFor?, ofAdapter, CapsuleSchema.all, List.foldl_cons, List.foldl_nil, register,
    ExtTreeMap.getElem?_insert, empty, ExtTreeMap.getElem?_empty] at htype
  split at htype
  · exact (Option.some.inj htype).symm
  · split at htype
    · exact (Option.some.inj htype).symm
    · cases htype

namespace Imager

/-- **What is kept by each function of a single prim**, and by a move in time. -/
structure PrimInvariant (I : Imager → Prop) : Prop where
  populatePrim : ∀ {im} stage path, I im → I (im.populatePrim stage path)
  removePrim : ∀ {im} path, I im → I (im.removePrim path)
  propertyChanged : ∀ {im} stage path name, I im → I (im.propertyChanged stage path name)
  touch : ∀ {im} path, I im → I (im.touch path)
  syncPrim : ∀ {im} stage path, I im → I (im.syncPrim stage path)
  time : ∀ {im : Imager} time, I im → I { im with time }

/-- So it is kept by a call, which goes through single prims. -/
theorem PrimInvariant.perform {I : Imager → Prop} (hI : PrimInvariant I) {im : Imager}
    (him : I im) (operation : Operation) : I (im.perform operation) := by
  cases operation with
  | populate stage =>
    exact List.foldlRecOn stage.paths _ him fun _ h path _ => hI.populatePrim stage path h
  | apply stage events =>
    refine List.foldlRecOn events _ him fun _ h event _ => ?_
    cases event with
    | defined path type => exact hI.populatePrim stage path (hI.removePrim path h)
    | removed path => exact hI.removePrim path h
    | changed path name => exact hI.propertyChanged stage path name h
  | setTime time =>
    simp only [Imager.perform, setTime]
    split
    · exact him
    · exact List.foldlRecOn im.entries.keys _ (hI.time time him) fun _ h path _ => hI.touch path h
  | sync stage =>
    exact List.foldlRecOn im.entries.keys _ him fun _ h path _ => hI.syncPrim stage path h
  | remove path => exact hI.removePrim path him

/-- What may happen to an imager and the caches it shares. -/
inductive Turn where
  /-- The imager is called. -/
  | call (operation : Operation)
  /-- Someone else makes a request. -/
  | request (r : Request)

/-- An imager and its caches after a turn. -/
def takeTurn (im : Imager) : Turn → Imager
  | .call operation => im.perform operation
  | .request r => { im with caches := (im.caches.serve r).2 }

/-- An imager and its caches after some turns. -/
def takeTurns (im : Imager) (turns : List Turn) : Imager :=
  turns.foldl takeTurn im

/-- **An imager that keeps to its registry**: its adapters are offered there, and its caches are as
the requests of such adapters have left them, and some requests of others. -/
structure KeepsTo (registry : Registry) (start : CacheBank) (others : Request → Prop)
    (im : Imager) : Prop where
  registry_eq : im.registry = registry
  offers : ∀ (path : PrimPath) (entry : Entry), im.entries[path]? = some entry →
    registry.Offers entry.adapter
  caches : ∃ requests, (∀ r ∈ requests, (∃ a, registry.Offers a ∧ r = .adapter a) ∨ others r) ∧
    im.caches = (start.serveAll requests).2

namespace KeepsTo

variable {registry : Registry} {start : CacheBank} {others : Request → Prop} {im : Imager}

/-- An entry that is set has an adapter that is offered if it is set so. -/
theorem offers_insert (h : KeepsTo registry start others im) {path : PrimPath} {entry : Entry}
    (hentry : registry.Offers entry.adapter) (q : PrimPath) (found : Entry)
    (hq : (im.entries.insert path entry)[q]? = some found) : registry.Offers found.adapter := by
  rw [ExtTreeMap.getElem?_insert] at hq
  split at hq
  · rw [← Option.some.inj hq]
    exact hentry
  · exact h.offers q found hq

/-- One more request may be made. -/
theorem caches_serve (h : KeepsTo registry start others im) {r : Request}
    (hr : (∃ a, registry.Offers a ∧ r = .adapter a) ∨ others r) :
    ∃ requests, (∀ r ∈ requests, (∃ a, registry.Offers a ∧ r = .adapter a) ∨ others r) ∧
      (im.caches.serve r).2 = (start.serveAll requests).2 := by
  obtain ⟨requests, hrequests, hcaches⟩ := h.caches
  refine ⟨requests ++ [r], ?_, ?_⟩
  · intro r' hr'
    rcases List.mem_append.1 hr' with hold | hnew
    · exact hrequests r' hold
    · rw [List.mem_singleton.1 hnew]
      exact hr
  · rw [CacheBank.serveAll_append, ← hcaches]
    rfl

/-- **No function of a prim leads away from the registry.** Only the delivery of connectivity asks
a cache, and it asks through the adapter in the entry. -/
theorem primInvariant : PrimInvariant (KeepsTo registry start others) where
  populatePrim stage path h := by
    unfold Imager.populatePrim
    split
    · exact h
    · next adapter hadapter =>
      obtain ⟨prim, -, -, hfor, -⟩ := adapterOf?_eq_some_iff.1 hadapter
      rw [h.registry_eq] at hfor
      exact ⟨h.registry_eq, h.offers_insert ⟨prim.type, hfor⟩, h.caches⟩
  removePrim path h := by
    unfold Imager.removePrim
    split
    · refine ⟨h.registry_eq, fun q found hq => ?_, h.caches⟩
      rw [ExtTreeMap.getElem?_erase] at hq
      split at hq
      · cases hq
      · exact h.offers q found hq
    · exact h
  propertyChanged stage path name h := by
    unfold Imager.propertyChanged
    split
    · exact h
    · next entry hentry =>
      exact ⟨h.registry_eq, h.offers_insert (h.offers path entry hentry), h.caches⟩
  touch path h := by
    unfold Imager.touch
    split
    · exact h
    · next entry hentry =>
      split
      · exact h
      · exact ⟨h.registry_eq, h.offers_insert (h.offers path entry hentry), h.caches⟩
  syncPrim stage path h := by
    unfold Imager.syncPrim
    split
    · exact h
    · next entry hentry =>
      have hoffers := h.offers path entry hentry
      split
      · exact h
      · refine ⟨h.registry_eq, h.offers_insert hoffers, ?_⟩
        by_cases htopology : entry.dirty.contains .topology
        · simp only [if_pos htopology]
          exact h.caches_serve (Or.inl ⟨entry.adapter, hoffers, rfl⟩)
        · simp only [if_neg htopology]
          exact h.caches
  time time h := ⟨h.registry_eq, h.offers, h.caches⟩

theorem takeTurns (h : KeepsTo registry start others im) {turns : List Turn}
    (hothers : ∀ r, .request r ∈ turns → others r) :
    KeepsTo registry start others (im.takeTurns turns) := by
  refine List.foldlRecOn turns _ h fun im h turn hturn => ?_
  cases turn with
  | call operation => exact primInvariant.perform h operation
  | request r => exact ⟨h.registry_eq, h.offers, h.caches_serve (Or.inr (hothers r hturn))⟩

end KeepsTo

/-- **What becomes of the caches in any turns** is what some requests make of them, and each of
these is one of the others' or is made of an adapter that the registry of the imager offers. -/
theorem caches_takeTurns (registry : Registry) (supported : List String) (caches : CacheBank)
    (turns : List Turn) :
    ∃ requests : List Request,
      (∀ r ∈ requests,
        (∃ a, registry.Offers a ∧ r = .adapter a) ∨ .request r ∈ turns) ∧
      ((fresh registry supported caches).takeTurns turns).caches =
        (caches.serveAll requests).2 := by
  have hfresh : KeepsTo registry caches (.request · ∈ turns) (fresh registry supported caches) :=
    ⟨rfl, fun path entry h => absurd h (by simp [fresh, ofRegistry]), [], by simp, rfl⟩
  exact (hfresh.takeTurns fun _ h => h).caches

/-- **Under one adapter its cache never has more than one connectivity.** -/
theorem size_cache_takeTurns_le (a : CapsuleAdapter) (supported : List String)
    {caches : CacheBank} (hempty : caches.cache a.slot = .empty) {turns : List Turn}
    (hothers : ∀ r, .request r ∈ turns → r.Through a) :
    (((fresh (.ofAdapter a) supported caches).takeTurns turns).caches.cache a.slot).size ≤ 1 := by
  obtain ⟨requests, hrequests, hcaches⟩ :=
    caches_takeTurns (.ofAdapter a) supported caches turns
  have hthrough : ∀ r ∈ requests, r.Through a := by
    intro r hr
    rcases hrequests r hr with ⟨b, hb, rfl⟩ | hother
    · rw [Registry.eq_of_offers_ofAdapter hb]
      exact .adapter
    · exact hothers r hother
  have hgrids : Request.grids a.slot requests ⊆ {a.key.2} := by
    intro g hg
    obtain ⟨r, hr, hkey⟩ := Request.mem_grids.1 hg
    rw [Finset.mem_singleton, ← (hthrough r hr).eq_key hkey]
  rw [hcaches, CacheBank.size_cache_serveAll hempty]
  exact Finset.card_le_card hgrids

end Imager

/-! ## Transparency -/

namespace CacheBank

/-- **A shared cache is transparent.** Whatever requests are made, of whichever caches and in
whichever way, each is answered as without a cache; what is in a cache stays in it as it is; and a
cache that was empty has as many connectivities as distinct grids were requested of it. Under an
imager with one adapter that is never more than one, whoever else makes requests through it. -/
theorem serveAll_transparent :
    (∀ (b : CacheBank) (requests : List Request),
      (b.serveAll requests).1 = requests.map Request.answer ∧
      (∀ (slot : Nat) (g : Grid) (m : MeshTopology),
        (b.cache slot).entries[g]? = some m →
          ((b.serveAll requests).2.cache slot).entries[g]? = some m) ∧
      ∀ slot, b.cache slot = .empty →
        ((b.serveAll requests).2.cache slot).size = (Request.grids slot requests).card) ∧
    ∀ (a : CapsuleAdapter) (supported : List String) (caches : CacheBank)
      (turns : List Imager.Turn),
      caches.cache a.slot = .empty →
      (∀ r, .request r ∈ turns → r.Through a) →
        (((Imager.fresh (.ofAdapter a) supported caches).takeTurns turns).caches.cache
          a.slot).size ≤ 1 := by
  refine ⟨fun b requests => ⟨serveAll_fst b requests, ?_, ?_⟩, ?_⟩
  · exact fun _ _ _ h => getElem?_cache_serveAll_of_some requests h
  · exact fun _ h => size_cache_serveAll h requests
  · exact fun a supported _ _ hempty hothers =>
      Imager.size_cache_takeTurns_le a supported hempty hothers

/-- Two sweeps that do not close, one that does, either way round, and data of another kind. -/
def mixedRequests : List Request :=
  [.resolution 0 10 4 180, .adapter ⟨{}, 0⟩, .adapter ⟨{ sweep := 90 }, 0⟩,
    .source ⟨.empty, ⟨"/c"⟩, .default, ⟨{ sweep := -360 }, 0⟩⟩ .topology,
    .source ⟨.empty, ⟨"/c"⟩, .default, ⟨{ sweep := 90 }, 0⟩⟩ .points, .grid 1 ⟨10, 4, true⟩]

/-- A capsule is populated and synced, and its connectivity is fetched before and after. -/
def oneCapsule (a : CapsuleAdapter) : List Imager.Turn :=
  let stage := Stage.empty.define ⟨"/c"⟩ "Capsule"
  [.request (.source ⟨stage, ⟨"/c"⟩, .default, a⟩ .topology), .call (.populate stage),
    .call (.sync stage), .request (.adapter a)]

theorem serveAll_transparent_mixed :
    (empty.serveAll mixedRequests).1[2]? =
      some (some (.topology (Grid.mk 10 4 false).topology)) ∧
    ((empty.serveAll mixedRequests).2.cache 0).size = 2 ∧
    (((empty.serveAll mixedRequests).2.serveAll [.grid 0 ⟨3, 1, true⟩]).2.cache
      0).entries[Grid.mk 10 4 false]? = some (Grid.mk 10 4 false).topology ∧
    (((Imager.fresh (.ofAdapter ⟨{ sweep := 90 }, 0⟩) [meshType] empty).takeTurns
      (oneCapsule ⟨{ sweep := 90 }, 0⟩)).caches.cache 0).size ≤ 1 := by
  obtain ⟨hanswers, -, hsize⟩ := serveAll_transparent.1 empty mixedRequests
  refine ⟨?_, ?_, ?_, ?_⟩
  · rw [hanswers]
    decide +kernel
  · rw [hsize 0 rfl]
    decide +kernel
  · exact (serveAll_transparent.1 _ _).2.1 0 _ _ (by decide +kernel)
  · refine serveAll_transparent.2 ⟨{ sweep := 90 }, 0⟩ [meshType] empty _ rfl fun r hr => ?_
    simp only [oneCapsule, List.mem_cons, Imager.Turn.request.injEq, reduceCtorEq, List.not_mem_nil,
      false_or, or_false] at hr
    rcases hr with rfl | rfl
    · exact .source _ _ rfl
    · exact .adapter

end CacheBank

end CapsuleImaging
