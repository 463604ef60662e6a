import ClusterCache.Resources
import Mathlib.Data.List.Sort
import Mathlib.Data.String.Basic

/-!
# The pod/service join index

`PodServiceCache` keeps the labels and namespace of every pod it was given, the selector, name
and namespace of every service with a non-empty selector, and the relation between them in two
maps: the services of each pod and the pods of each service. `SetPod` and `SetService` store
the new fields and then link the pairs the stored selectors match; they return early when the
fields did not change, and `SetService` also when the selector is empty. The deletes cascade
through one map into the other.

The two refresh loops of the source are one loop, `linkStep` folded over an enumeration of a
map, with the test and the pair as parameters. Its lemmas are proved for any list of entries,
so they hold for every order in which the runtime enumerates the map.
-/

namespace ClusterCache

open GoMap

structure PodServiceCache where
  svcUIDNamespaceCache : GoMap UID String
  svcUIDNameCache : GoMap UID String
  svcUIDSelectorCache : GoMap UID Selector
  podUIDLabelCache : GoMap UID (Option Labels)
  podUIDNamespaceCache : GoMap UID String
  podSvcUIDCache : GoMap UID (GoSet UID)
  svcPodUIDCache : GoMap UID (GoSet UID)

def newPodServiceCache : PodServiceCache :=
  ⟨∅, ∅, ∅, ∅, ∅, ∅, ∅⟩

namespace PodServiceCache

def link (psc : PodServiceCache) (podUID svcUID : UID) : PodServiceCache :=
  { psc with
    podSvcUIDCache := psc.podSvcUIDCache.addTo podUID svcUID
    svcPodUIDCache := psc.svcPodUIDCache.addTo svcUID podUID }

/-- One iteration of the refresh loops: an entry `hit` accepts has the pair `pair` names linked
and its key appended to the returned list. -/
def linkStep {V : Type} (hit : UID → V → Bool) (pair : UID → UID × UID)
    (acc : PodServiceCache × List UID) (e : Σ _ : UID, V) : PodServiceCache × List UID :=
  if hit e.1 e.2 then (acc.1.link (pair e.1).1 (pair e.1).2, acc.2 ++ [e.1]) else acc

def refreshCacheByService (psc : PodServiceCache) (svc : Service) : PodServiceCache × List UID :=
  match psc.svcUIDSelectorCache.lookup svc.uid with
  | none => (psc, [])
  | some selector =>
      psc.podUIDLabelCache.entries.foldl
        (linkStep (fun podUID labelSet =>
            selector.matches labelSet && psc.podUIDNamespaceCache.getD podUID "" == svc.ns)
          (fun podUID => (podUID, svc.uid)))
        (psc, [])

def refreshCacheByPod (psc : PodServiceCache) (pod : Resource) : PodServiceCache × List UID :=
  match psc.podUIDLabelCache.lookup pod.uid with
  | none => (psc, [])
  | some labelSet =>
      psc.svcUIDSelectorCache.entries.foldl
        (linkStep (fun svcUID selector =>
            selector.matches labelSet && psc.svcUIDNamespaceCache.getD svcUID "" == pod.ns)
          (fun svcUID => (pod.uid, svcUID)))
        (psc, [])

/-- `SetService`: a service with an empty selector is ignored, and so is one whose selector,
name and namespace are those already cached; otherwise the three are stored and the service's
pods refreshed. -/
def setService (psc : PodServiceCache) (svc : Service) : PodServiceCache :=
  let selector := asSelectorPreValidated svc.selector
  if selector.empty then psc
  else if (match psc.svcUIDSelectorCache.lookup svc.uid with
        | some cachedSelector => deepEqual cachedSelector selector
        | none => false) &&
      psc.svcUIDNameCache.getD svc.uid "" == svc.name &&
      psc.svcUIDNamespaceCache.getD svc.uid "" == svc.ns then psc
  else
    ({ psc with
        svcUIDNamespaceCache := psc.svcUIDNamespaceCache.insert svc.uid svc.ns
        svcUIDSelectorCache := psc.svcUIDSelectorCache.insert svc.uid selector
        svcUIDNameCache := psc.svcUIDNameCache.insert svc.uid svc.name }.refreshCacheByService
      svc).1

def deleteServiceFromCache (psc : PodServiceCache) (svcUID : UID) : PodServiceCache :=
  { psc with
    svcUIDNamespaceCache := psc.svcUIDNamespaceCache.erase svcUID
    svcUIDSelectorCache := psc.svcUIDSelectorCache.erase svcUID
    svcUIDNameCache := psc.svcUIDNameCache.erase svcUID
    svcPodUIDCache := (unlink psc.svcPodUIDCache psc.podSvcUIDCache svcUID).1
    podSvcUIDCache := (unlink psc.svcPodUIDCache psc.podSvcUIDCache svcUID).2 }

/-- `SetPod`: a pod whose label set and namespace are deeply equal to the cached ones (a missing
pod reads as a nil label set and the empty namespace) is ignored; otherwise both are stored and
the pod's services refreshed. -/
def setPod (psc : PodServiceCache) (pod : Resource) : PodServiceCache :=
  if deepEqualNil (psc.podUIDLabelCache.getD pod.uid none) pod.labels &&
      psc.podUIDNamespaceCache.getD pod.uid "" == pod.ns then psc
  else
    ({ psc with
        podUIDNamespaceCache := psc.podUIDNamespaceCache.insert pod.uid pod.ns
        podUIDLabelCache := psc.podUIDLabelCache.insert pod.uid pod.labels }.refreshCacheByPod
      pod).1

def deletePodFromCache (psc : PodServiceCache) (podUID : UID) : PodServiceCache :=
  { psc with
    podUIDNamespaceCache := psc.podUIDNamespaceCache.erase podUID
    podUIDLabelCache := psc.podUIDLabelCache.erase podUID
    podSvcUIDCache := (unlink psc.podSvcUIDCache psc.svcPodUIDCache podUID).1
    svcPodUIDCache := (unlink psc.podSvcUIDCache psc.svcPodUIDCache podUID).2 }

def getPodUIDsForServiceUID (psc : PodServiceCache) (svcUID : UID) : List UID :=
  match psc.svcPodUIDCache.lookup svcUID with
  | some podSet => podSet.keys
  | none => []

def getPodUIDsForService (psc : PodServiceCache) (svc : Service) : List UID :=
  psc.getPodUIDsForServiceUID svc.uid

def getServiceNamesForPodUID (psc : PodServiceCache) (podUID : UID) : List String :=
  match psc.podSvcUIDCache.lookup podUID with
  | some serviceUIDs => serviceUIDs.keys.map fun svcUID => psc.svcUIDNameCache.getD svcUID ""
  | none => []

/-- `GetServiceNameForPodUID`: the first of the pod's service names after `sort.Strings`, or the
error when it has none. -/
def getServiceNameForPodUID (psc : PodServiceCache) (podUID : UID) : Except String String :=
  let services := psc.getServiceNamesForPodUID podUID
  if services.length = 0 then .error "no service matched pod"
  else .ok ((services.insertionSort (· ≤ ·)).headD "")

def getServiceNamesForPod (psc : PodServiceCache) (pod : Resource) : List String :=
  match psc.podSvcUIDCache.lookup pod.uid with
  | some serviceUIDs => serviceUIDs.keys.map fun svcUID => psc.svcUIDNameCache.getD svcUID ""
  | none => []

def getServiceNameForPod (psc : PodServiceCache) (pod : Resource) : Except String String :=
  let services := psc.getServiceNamesForPod pod
  if services.length = 0 then .error "no service matched pod"
  else .ok ((services.insertionSort (· ≤ ·)).headD "")

/-! The four lookups above range over the pod's service set in the order of its entries. Go
leaves that order unspecified; the variants below take it as a parameter `enum`, and with
`enum := AList.keys` they are the lookups above. -/

def getServiceNamesForPodUIDBy (enum : GoSet UID → List UID) (psc : PodServiceCache)
    (podUID : UID) : List String :=
  match psc.podSvcUIDCache.lookup podUID with
  | some serviceUIDs => (enum serviceUIDs).map fun svcUID => psc.svcUIDNameCache.getD svcUID ""
  | none => []

def getServiceNameForPodUIDBy (enum : GoSet UID → List UID) (psc : PodServiceCache)
    (podUID : UID) : Except String String :=
  let services := psc.getServiceNamesForPodUIDBy enum podUID
  if services.length = 0 then .error "no service matched pod"
  else .ok ((services.insertionSort (· ≤ ·)).headD "")

def getServiceNamesForPodBy (enum : GoSet UID → List UID) (psc : PodServiceCache)
    (pod : Resource) : List String :=
  match psc.podSvcUIDCache.lookup pod.uid with
  | some serviceUIDs => (enum serviceUIDs).map fun svcUID => psc.svcUIDNameCache.getD svcUID ""
  | none => []

def getServiceNameForPodBy (enum : GoSet UID → List UID) (psc : PodServiceCache)
    (pod : Resource) : Except String String :=
  let services := psc.getServiceNamesForPodBy enum pod
  if services.length = 0 then .error "no service matched pod"
  else .ok ((services.insertionSort (· ≤ ·)).headD "")

theorem getServiceNameForPodUID_eq_by (psc : PodServiceCache) (podUID : UID) :
    psc.getServiceNameForPodUID podUID = psc.getServiceNameForPodUIDBy AList.keys podUID :=
  rfl

theorem getServiceNameForPod_eq_by (psc : PodServiceCache) (pod : Resource) :
    psc.getServiceNameForPod pod = psc.getServiceNameForPodBy AList.keys pod :=
  rfl


inductive Call where
  | setPod (pod : Resource)
  | setService (svc : Service)
  | deletePodFromCache (podUID : UID)
  | deleteServiceFromCache (svcUID : UID)

def apply (psc : PodServiceCache) : Call → PodServiceCache
  | .setPod pod => psc.setPod pod
  | .setService svc => psc.setService svc
  | .deletePodFromCache podUID => psc.deletePodFromCache podUID
  | .deleteServiceFromCache svcUID => psc.deleteServiceFromCache svcUID

def runCalls (calls : List Call) : PodServiceCache :=
  calls.foldl apply newPodServiceCache

/-! ### The refresh loop

Whatever order the loop enumerates the map in, it links the pairs of the entries its test
accepts, and nothing else changes: `foldl_linkStep_fst` says so through `linkAll`, which links a
list of pairs, and the lemmas on `linkAll` say what that does to each map.
-/

section Loop

def linkAll (psc : PodServiceCache) (pairs : List (UID × UID)) : PodServiceCache :=
  pairs.foldl (fun psc q => psc.link q.1 q.2) psc

variable {psc : PodServiceCache} {pairs : List (UID × UID)} {p s : UID}

theorem linkAll_frame {α : Type} (f : PodServiceCache → α)
    (hf : ∀ psc p s, f (psc.link p s) = f psc) : f (psc.linkAll pairs) = f psc := by
  induction pairs generalizing psc with
  | nil => rfl
  | cons q qs ih => exact ih.trans (hf _ _ _)

@[simp] theorem linkAll_svcUIDNamespaceCache :
    (psc.linkAll pairs).svcUIDNamespaceCache = psc.svcUIDNamespaceCache :=
  linkAll_frame _ fun _ _ _ => rfl

@[simp] theorem linkAll_svcUIDNameCache : (psc.linkAll pairs).svcUIDNameCache = psc.svcUIDNameCache :=
  linkAll_frame _ fun _ _ _ => rfl

@[simp] theorem linkAll_svcUIDSelectorCache :
    (psc.linkAll pairs).svcUIDSelectorCache = psc.svcUIDSelectorCache :=
  linkAll_frame _ fun _ _ _ => rfl

@[simp] theorem linkAll_podUIDLabelCache :
    (psc.linkAll pairs).podUIDLabelCache = psc.podUIDLabelCache :=
  linkAll_frame _ fun _ _ _ => rfl

@[simp] theorem linkAll_podUIDNamespaceCache :
    (psc.linkAll pairs).podUIDNamespaceCache = psc.podUIDNamespaceCache :=
  linkAll_frame _ fun _ _ _ => rfl

@[simp]
theorem has_podSvc_linkAll :
    (psc.linkAll pairs).podSvcUIDCache.Has p s ↔ psc.podSvcUIDCache.Has p s ∨ (p, s) ∈ pairs := by
  induction pairs generalizing psc with
  | nil => simp [linkAll]
  | cons q qs ih =>
      simp only [linkAll, List.foldl_cons] at ih ⊢
      rw [ih, link, has_addTo, List.mem_cons, Prod.ext_iff, or_assoc]
      exact or_left_comm

@[simp]
theorem has_svcPod_linkAll :
    (psc.linkAll pairs).svcPodUIDCache.Has s p ↔ psc.svcPodUIDCache.Has s p ∨ (p, s) ∈ pairs := by
  induction pairs generalizing psc with
  | nil => simp [linkAll]
  | cons q qs ih =>
      simp only [linkAll, List.foldl_cons] at ih ⊢
      rw [ih, link, has_addTo, List.mem_cons, Prod.ext_iff, and_comm, or_assoc]
      exact or_left_comm

@[simp]
theorem mem_podSvc_linkAll :
    p ∈ (psc.linkAll pairs).podSvcUIDCache ↔ p ∈ psc.podSvcUIDCache ∨ ∃ s, (p, s) ∈ pairs := by
  induction pairs generalizing psc with
  | nil => simp [linkAll]
  | cons q qs ih =>
      simp only [linkAll, List.foldl_cons] at ih ⊢
      rw [ih, link, mem_addTo]
      simp only [List.mem_cons, Prod.ext_iff, exists_or, exists_and_left, exists_eq, and_true, or_assoc]
      exact or_left_comm

@[simp]
theorem mem_svcPod_linkAll :
    s ∈ (psc.linkAll pairs).svcPodUIDCache ↔ s ∈ psc.svcPodUIDCache ∨ ∃ p, (p, s) ∈ pairs := by
  induction pairs generalizing psc with
  | nil => simp [linkAll]
  | cons q qs ih =>
      simp only [linkAll, List.foldl_cons] at ih ⊢
      rw [ih, link, mem_addTo]
      simp only [List.mem_cons, Prod.ext_iff, exists_or, exists_and_right, exists_eq, true_and, or_assoc]
      exact or_left_comm

variable {V : Type} {hit : UID → V → Bool} {pair : UID → UID × UID}

/-- The refresh loop links the pairs of the accepted entries. -/
theorem foldl_linkStep_fst (es : List (Σ _ : UID, V)) (acc : PodServiceCache × List UID) :
    (es.foldl (linkStep hit pair) acc).1 =
      acc.1.linkAll ((es.filter fun e => hit e.1 e.2).map fun e => pair e.1) := by
  induction es generalizing acc with
  | nil => rfl
  | cons e es ih =>
      rw [List.foldl_cons, ih, List.filter_cons]
      unfold linkStep
      split <;> simp [*, linkAll]

end Loop

/-! ### Refreshing -/

section Refresh

variable {psc : PodServiceCache} {svc : Service} {pod : Resource} {p s : UID}

theorem exists_mem_entries {V : Type} {m : GoMap UID V} {P : (Σ _ : UID, V) → Prop} :
    (∃ e ∈ m.entries, P e) ↔ ∃ k v, m.lookup k = some v ∧ P ⟨k, v⟩ :=
  ⟨fun ⟨e, he, hp⟩ => ⟨e.1, e.2, AList.mem_lookup_iff.2 he, hp⟩,
    fun ⟨k, v, hk, hp⟩ => ⟨⟨k, v⟩, AList.mem_lookup_iff.1 hk, hp⟩⟩

/-- The pod `p` and the service `s` as they are stored: the selector of `s` matches the labels
of `p`, and the two namespaces agree. -/
def StoredMatch (psc : PodServiceCache) (p s : UID) : Prop :=
  ∃ selector labelSet, psc.svcUIDSelectorCache.lookup s = some selector ∧
    psc.podUIDLabelCache.lookup p = some labelSet ∧ selector.matches labelSet = true ∧
    psc.podUIDNamespaceCache.getD p "" = psc.svcUIDNamespaceCache.getD s ""

theorem refreshCacheByService_frame {α : Type} (f : PodServiceCache → α)
    (hf : ∀ psc p s, f (psc.link p s) = f psc) : f (psc.refreshCacheByService svc).1 = f psc := by
  unfold refreshCacheByService
  split
  · rfl
  · rw [foldl_linkStep_fst]
    exact linkAll_frame f hf

theorem refreshCacheByPod_frame {α : Type} (f : PodServiceCache → α)
    (hf : ∀ psc p s, f (psc.link p s) = f psc) : f (psc.refreshCacheByPod pod).1 = f psc := by
  unfold refreshCacheByPod
  split
  · rfl
  · rw [foldl_linkStep_fst]
    exact linkAll_frame f hf

/-- Refreshing a service whose stored namespace is its own links it to exactly the stored pods
it matches. -/
theorem refreshCacheByService_fst (hns : psc.svcUIDNamespaceCache.getD svc.uid "" = svc.ns) :
    ∃ pairs, (psc.refreshCacheByService svc).1 = psc.linkAll pairs ∧
      ∀ p s, (p, s) ∈ pairs ↔ s = svc.uid ∧ psc.StoredMatch p s := by
  unfold refreshCacheByService
  split <;> rename_i h
  · refine ⟨[], rfl, fun p s => ⟨fun h => by simp at h, ?_⟩⟩
    rintro ⟨rfl, _, _, hs, -⟩
    simp [h] at hs
  · refine ⟨_, foldl_linkStep_fst _ _, fun p s => ?_⟩
    simp only [List.mem_map, List.mem_filter, and_assoc]
    rw [exists_mem_entries]
    simp only [StoredMatch, Bool.and_eq_true, beq_iff_eq, h, Option.some.injEq, hns]
    constructor
    · rintro ⟨k, v, hk, ⟨hm, hn⟩, he⟩
      obtain ⟨rfl, rfl⟩ := Prod.mk.inj_iff.1 he
      exact ⟨rfl, _, v, h, hk, hm, hn.trans hns.symm⟩
    · rintro ⟨rfl, _, v, hs, hp, hm, hn⟩
      obtain rfl := Option.some.inj (h.symm.trans hs)
      exact ⟨p, v, hp, ⟨hm, hn.trans hns⟩, rfl⟩

/-- Refreshing a pod whose stored namespace is its own links it to exactly the stored services
that match it. -/
theorem refreshCacheByPod_fst (hns : psc.podUIDNamespaceCache.getD pod.uid "" = pod.ns) :
    ∃ pairs, (psc.refreshCacheByPod pod).1 = psc.linkAll pairs ∧
      ∀ p s, (p, s) ∈ pairs ↔ p = pod.uid ∧ psc.StoredMatch p s := by
  unfold refreshCacheByPod
  split <;> rename_i h
  · refine ⟨[], rfl, fun p s => ⟨fun h => by simp at h, ?_⟩⟩
    rintro ⟨rfl, _, _, -, hp, -⟩
    simp [h] at hp
  · refine ⟨_, foldl_linkStep_fst _ _, fun p s => ?_⟩
    simp only [List.mem_map, List.mem_filter, and_assoc]
    rw [exists_mem_entries]
    simp only [StoredMatch, Bool.and_eq_true, beq_iff_eq, h, Option.some.injEq, hns]
    constructor
    · rintro ⟨k, v, hk, ⟨hm, hn⟩, he⟩
      obtain ⟨rfl, rfl⟩ := Prod.mk.inj_iff.1 he
      exact ⟨rfl, v, _, hk, h, hm, hns.trans hn.symm⟩
    · rintro ⟨rfl, v, _, hs, hp, hm, hn⟩
      obtain rfl := Option.some.inj (h.symm.trans hp)
      exact ⟨s, v, hs, ⟨hm, hn.symm.trans hns⟩, rfl⟩

end Refresh

/-! ### What each call stores -/

section Fields

variable {psc : PodServiceCache} {pod : Resource} {svc : Service}

@[simp] theorem setPod_svcUIDSelectorCache :
    (psc.setPod pod).svcUIDSelectorCache = psc.svcUIDSelectorCache := by
  unfold setPod
  split_ifs
  · rfl
  · exact refreshCacheByPod_frame _ fun _ _ _ => rfl

@[simp] theorem setPod_svcUIDNameCache : (psc.setPod pod).svcUIDNameCache = psc.svcUIDNameCache := by
  unfold setPod
  split_ifs
  · rfl
  · exact refreshCacheByPod_frame _ fun _ _ _ => rfl

@[simp] theorem setPod_svcUIDNamespaceCache :
    (psc.setPod pod).svcUIDNamespaceCache = psc.svcUIDNamespaceCache := by
  unfold setPod
  split_ifs
  · rfl
  · exact refreshCacheByPod_frame _ fun _ _ _ => rfl

@[simp] theorem setService_podUIDLabelCache :
    (psc.setService svc).podUIDLabelCache = psc.podUIDLabelCache := by
  unfold setService
  dsimp only
  split_ifs
  · rfl
  · rfl
  · exact refreshCacheByService_frame _ fun _ _ _ => rfl

@[simp] theorem setService_podUIDNamespaceCache :
    (psc.setService svc).podUIDNamespaceCache = psc.podUIDNamespaceCache := by
  unfold setService
  dsimp only
  split_ifs
  · rfl
  · rfl
  · exact refreshCacheByService_frame _ fun _ _ _ => rfl

theorem setPod_podUIDLabelCache :
    (psc.setPod pod).podUIDLabelCache = psc.podUIDLabelCache ∨
      (psc.setPod pod).podUIDLabelCache = psc.podUIDLabelCache.insert pod.uid pod.labels := by
  unfold setPod
  split_ifs
  · exact .inl rfl
  · exact .inr (refreshCacheByPod_frame _ fun _ _ _ => rfl)

theorem setService_svcUIDSelectorCache :
    (psc.setService svc).svcUIDSelectorCache = psc.svcUIDSelectorCache ∨
      (psc.setService svc).svcUIDSelectorCache =
        psc.svcUIDSelectorCache.insert svc.uid (asSelectorPreValidated svc.selector) := by
  unfold setService
  dsimp only
  split_ifs
  · exact .inl rfl
  · exact .inl rfl
  · exact .inr (refreshCacheByService_frame _ fun _ _ _ => rfl)

theorem mem_getPodUIDsForServiceUID {s p : UID} :
    p ∈ psc.getPodUIDsForServiceUID s ↔ psc.svcPodUIDCache.Has s p := by
  unfold getPodUIDsForServiceUID GoMap.Has
  cases psc.svcPodUIDCache.lookup s <;> simp [AList.mem_keys]

end Fields

end PodServiceCache

end ClusterCache
