import ClusterCache.Proof.ServiceCache

/-!
# The pod cache

`AddPod` adds the pod to the set of its namespace and stores its fields; `DeleteByKey` removes
it from the set of its cached namespace and deletes its namespace and labels. Neither looks at a
namespace the pod had before: a pod added again in another namespace stays in the set of the
first, and `DeleteByKey` keeps the pod's owner references, which `GetOwnerReferences` still
returns. What holds over every run is the other half of the index: the set of each namespace
holds every pod cached in it, once (`Indexed`); and the per-pod maps hold the fields of the
latest `AddPod` of each UID, the namespace and labels only until a `DeleteByKey` of it
(`Follows`). Exactly, the set of a namespace holds a pod while an `AddPod` of it in that
namespace was not followed by a `DeleteByKey` made while that namespace was the one cached for
it (`IndexFollows`).

`IsCached` reads a missing entry as the zero value of each field, so a pod the cache never held,
with no labels, no namespace and no owner references, is reported cached; over a history it
compares a pod with the latest `AddPod` of its UID, and its owner references with the last one,
deleted or not. The service cache has
no such case: a missing selector is a nil interface, deeply equal to no selector a service has,
and its maps keep one key set, so a service it reports cached is recorded with its selector,
name and namespace.
-/

namespace ClusterCache

namespace PodCache

open GoMap

variable {pc : PodCache} {u : UID}

/-! ### Pods never added -/

/-- The cache has no namespace, labels or owner references for `u`. -/
def Absent (pc : PodCache) (u : UID) : Prop :=
  u ∉ pc.podUIDNamespaceCache ∧ u ∉ pc.podUIDLabelCache ∧ u ∉ pc.podUIDORCache

theorem Absent.apply (h : pc.Absent u) (c : PodCall)
    (hc : ∀ pod, c = .addPod pod → pod.uid ≠ u) : (pc.apply c).Absent u := by
  cases c with
  | addPod pod =>
      have hu : u ≠ pod.uid := (hc pod rfl).symm
      simpa [Absent, PodCache.apply, addPod, hu] using h
  | deleteByKey key =>
      simpa [Absent, PodCache.apply, deleteByKey] using ⟨fun _ => h.1, fun _ => h.2.1, h.2.2⟩

theorem absent_runPodCalls (calls : List PodCall)
    (h : ∀ pod, PodCall.addPod pod ∈ calls → pod.uid ≠ u) : (runPodCalls calls).Absent u := by
  suffices ∀ pc : PodCache, pc.Absent u → (calls.foldl PodCache.apply pc).Absent u from
    this _ ⟨AList.not_mem_empty _, AList.not_mem_empty _, AList.not_mem_empty _⟩
  induction calls with
  | nil => exact fun _ h => h
  | cons c cs ih =>
      intro pc hpc
      exact ih (fun pod hp => h pod (List.mem_cons_of_mem c hp)) _
        (hpc.apply c fun pod hc => h pod (hc ▸ List.mem_cons_self _ _))

/-- A pod the cache has nothing for, with no labels, no namespace and no owner references, is
deeply equal to the zero values `IsCached` reads. -/
theorem isCached_of_absent {pod : Resource} (h : pc.Absent pod.uid) (hl : pod.labels = none)
    (hns : pod.ns = "") (hor : pod.ownerReferences = none) : pc.isCached pod = true := by
  simp [isCached, getD, AList.lookup_eq_none.2 h.1, AList.lookup_eq_none.2 h.2.1,
    AList.lookup_eq_none.2 h.2.2, hl, hns, hor, deepEqualNil]

/-- A pod just added is reported cached, whatever the cache held before. -/
theorem isCached_addPod (pc : PodCache) (pod : Resource) : (pc.addPod pod).isCached pod = true := by
  simp [isCached, PodCache.addPod, getD, deepEqualNil_self]

/-! ### The namespace index -/

/-- Every pod with a cached namespace is in the set of that namespace. -/
def Indexed (pc : PodCache) : Prop :=
  ∀ p ns, pc.podUIDNamespaceCache.lookup p = some ns → pc.namespacePodUIDCache.Has ns p

theorem Indexed.addPod (h : pc.Indexed) (pod : Resource) : (pc.addPod pod).Indexed := by
  intro p ns hp
  simp only [PodCache.addPod, has_addTo] at hp ⊢
  by_cases hpu : p = pod.uid
  · subst hpu
    simp only [AList.lookup_insert, Option.some.injEq] at hp
    exact .inl ⟨hp.symm, rfl⟩
  · rw [AList.lookup_insert_ne hpu] at hp
    exact .inr (h p ns hp)

theorem Indexed.deleteByKey (h : pc.Indexed) (key : UID) : (pc.deleteByKey key).Indexed := by
  intro p ns hp
  have hpk : p ≠ key := by
    rintro rfl
    simp [PodCache.deleteByKey] at hp
  simp only [PodCache.deleteByKey, AList.lookup_erase_ne hpk] at hp
  simp only [PodCache.deleteByKey, has_removeFrom, hpk, and_false, not_false_eq_true, true_and]
  exact h p ns hp

theorem indexed_runPodCalls (calls : List PodCall) : (runPodCalls calls).Indexed := by
  suffices ∀ pc : PodCache, pc.Indexed → (calls.foldl PodCache.apply pc).Indexed from
    this _ fun _ _ hp => by simp [newPodCache] at hp
  induction calls with
  | nil => exact fun _ h => h
  | cons c cs ih =>
      intro pc hpc
      cases c with
      | addPod pod => exact ih _ (hpc.addPod pod)
      | deleteByKey key => exact ih _ (hpc.deleteByKey key)

theorem mem_getPodsInNamespace {p : UID} {ns : String} :
    p ∈ pc.getPodsInNamespace ns ↔ pc.namespacePodUIDCache.Has ns p := by
  unfold getPodsInNamespace Has
  cases pc.namespacePodUIDCache.lookup ns <;> simp [AList.mem_keys]

theorem nodup_getPodsInNamespace (pc : PodCache) (ns : String) :
    (pc.getPodsInNamespace ns).Nodup := by
  unfold getPodsInNamespace
  split
  · exact AList.keys_nodup _
  · exact List.nodup_nil

/-- After every sequence of calls, `GetPodsInNamespace` lists, once, each pod cached in the
namespace. -/
theorem getPodsInNamespace_of_runPodCalls (calls : List PodCall) (ns : String) :
    (runPodCalls calls |>.getPodsInNamespace ns).Nodup ∧
      ∀ p, (runPodCalls calls).podUIDNamespaceCache.lookup p = some ns →
        p ∈ (runPodCalls calls).getPodsInNamespace ns :=
  ⟨nodup_getPodsInNamespace _ ns, fun p hp =>
    mem_getPodsInNamespace.2 (indexed_runPodCalls calls p ns hp)⟩

/-- **A stale index.** A pod added again in another namespace is still listed in its first one,
and after `DeleteByKey` its owner references are still returned, whatever the cache held
before. -/
theorem pod_cache_index_keeps_stale_entries (pc : PodCache) (pod : Resource) (ns : String) :
    pod.uid ∈ ((pc.addPod pod).addPod { pod with ns := ns }).getPodsInNamespace pod.ns ∧
      ((pc.addPod pod).deleteByKey pod.uid).getOwnerReferences pod.uid = pod.ownerReferences := by
  refine ⟨mem_getPodsInNamespace.2 ?_, ?_⟩
  · simp [PodCache.addPod]
  · simp [getOwnerReferences, PodCache.deleteByKey, PodCache.addPod]

/-- **Change detection.** A service the service cache reports cached, after any calls, is
recorded with a deeply equal selector, its name and its namespace; but a pod no call added, with
no labels, no namespace and no owner references, is reported cached by the pod cache. -/
theorem pod_cache_reports_unseen_pod_cached :
    (∀ calls sc (svc : Service), runServiceCalls calls = some sc → sc.isCached svc = true →
      ∃ selector, sc.svcUIDSelectorCache.lookup svc.uid = some selector ∧
        deepEqual selector (asSelectorPreValidated svc.selector) = true ∧
        sc.svcUIDNameCache.lookup svc.uid = some svc.name ∧
        sc.svcUIDNamespaceCache.lookup svc.uid = some svc.ns) ∧
      ∀ calls (pod : Resource), (∀ p, PodCall.addPod p ∈ calls → p.uid ≠ pod.uid) →
        pod.labels = none → pod.ns = "" → pod.ownerReferences = none →
        (runPodCalls calls).isCached pod = true := by
  refine ⟨fun calls sc svc hrun hc => ?_, fun calls pod h hl hns hor =>
    isCached_of_absent (absent_runPodCalls calls h) hl hns hor⟩
  obtain ⟨sc', hrun', hk⟩ := ServiceCache.runServiceCalls_keysAgree calls
  rw [hrun] at hrun'
  cases hrun'
  exact hk.of_isCached hc

/-- A service cache after one `AddService` reports the service cached with its fields recorded,
and a fresh pod cache reports a pod it never held cached. -/
theorem pod_cache_reports_unseen_pod_cached_of_fresh_caches :
    let svc : Service :=
      ⟨⟨"s", "web", "default", none, none⟩, some ((∅ : Labels).insert "app" "web")⟩
    let sc := newServiceCache.addService svc
    (∃ selector, sc.svcUIDSelectorCache.lookup "s" = some selector ∧
        deepEqual selector (asSelectorPreValidated svc.selector) = true ∧
        sc.svcUIDNameCache.lookup "s" = some "web" ∧
        sc.svcUIDNamespaceCache.lookup "s" = some "default") ∧
      (runPodCalls []).isCached ⟨⟨"p", "p", "", none, none⟩, []⟩ = true := by
  intro svc sc
  have h := pod_cache_reports_unseen_pod_cached
  exact ⟨h.1 [.addService svc] _ svc rfl (by decide), h.2 [] _ (by simp) rfl rfl rfl⟩

end PodCache

/-! ### What the pod cache holds after a history -/

/-- The pod a call leaves stored under `u`, given the one before it: `AddPod` of `u` stores it,
and `DeleteByKey` of `u` deletes it. -/
def PodCall.latest (u : UID) (latest : Option Resource) : PodCall → Option Resource
  | .addPod pod => if pod.uid = u then some pod else latest
  | .deleteByKey key => if key = u then none else latest

/-- The pod of the latest `AddPod` of `u`, given the one before the call; deletes aside. -/
def PodCall.lastAdded (u : UID) (last : Option Resource) : PodCall → Option Resource
  | .addPod pod => if pod.uid = u then some pod else last
  | .deleteByKey _ => last

/-- The pod of the latest `AddPod` of `u`, unless a `DeleteByKey` of `u` came after. -/
def latestAddedPod (calls : List PodCall) (u : UID) : Option Resource :=
  calls.foldl (PodCall.latest u) none

/-- The pod of the latest `AddPod` of `u`, whatever came after. -/
def lastAddedPod (calls : List PodCall) (u : UID) : Option Resource :=
  calls.foldl (PodCall.lastAdded u) none

namespace PodCache

variable {pc : PodCache} {u : UID} {latest last : Option Resource}

/-- The cache stores under `u` the namespace and labels of `latest` and the owner references of
`last`. -/
structure Follows (pc : PodCache) (u : UID) (latest last : Option Resource) : Prop where
  ns : pc.podUIDNamespaceCache.lookup u = latest.map (·.ns)
  labels : pc.podUIDLabelCache.lookup u = latest.map (·.labels)
  ownerReferences : pc.podUIDORCache.lookup u = last.map (·.ownerReferences)

/-- One call moves the stored fields of `u` as `PodCall.latest` and `PodCall.lastAdded` say. -/
theorem Follows.apply (h : pc.Follows u latest last) (c : PodCall) :
    (pc.apply c).Follows u (PodCall.latest u latest c) (PodCall.lastAdded u last c) := by
  cases c with
  | addPod pod =>
      rcases eq_or_ne pod.uid u with rfl | hu
      · refine ⟨?_, ?_, ?_⟩ <;> simp [PodCache.apply, addPod, PodCall.latest, PodCall.lastAdded]
      · refine ⟨?_, ?_, ?_⟩ <;>
          simp [PodCache.apply, addPod, PodCall.latest, PodCall.lastAdded, hu,
            AList.lookup_insert_ne (Ne.symm hu), h.ns, h.labels, h.ownerReferences]
  | deleteByKey key =>
      rcases eq_or_ne key u with rfl | hu
      · refine ⟨?_, ?_, ?_⟩ <;>
          simp [PodCache.apply, deleteByKey, PodCall.latest, PodCall.lastAdded, h.ownerReferences]
      · refine ⟨?_, ?_, ?_⟩ <;>
          simp [PodCache.apply, deleteByKey, PodCall.latest, PodCall.lastAdded, hu,
            AList.lookup_erase_ne (Ne.symm hu), h.ns, h.labels, h.ownerReferences]

theorem Follows.foldl (h : pc.Follows u latest last) (calls : List PodCall) :
    (calls.foldl PodCache.apply pc).Follows u (calls.foldl (PodCall.latest u) latest)
      (calls.foldl (PodCall.lastAdded u) last) := by
  induction calls generalizing pc latest last with
  | nil => exact h
  | cons c cs ih => exact ih (h.apply c)

theorem follows_runPodCalls (calls : List PodCall) (u : UID) :
    (runPodCalls calls).Follows u (latestAddedPod calls u) (lastAddedPod calls u) :=
  (⟨rfl, rfl, rfl⟩ : newPodCache.Follows u none none).foldl calls

/-- **The pod cache follows the latest adds.** After every sequence of calls from
`NewPodCache()`, the cache stores for each UID the namespace and labels of the latest `AddPod` of
it, unless a `DeleteByKey` of it came after, and the owner references of the latest `AddPod` of
it, a `DeleteByKey` after it notwithstanding. -/
theorem pod_cache_follows_latest_adds (calls : List PodCall) (u : UID) :
    (runPodCalls calls).podUIDNamespaceCache.lookup u = (latestAddedPod calls u).map (·.ns) ∧
      (runPodCalls calls).podUIDLabelCache.lookup u = (latestAddedPod calls u).map (·.labels) ∧
      (runPodCalls calls).podUIDORCache.lookup u =
        (lastAddedPod calls u).map (·.ownerReferences) :=
  let h := follows_runPodCalls calls u
  ⟨h.ns, h.labels, h.ownerReferences⟩

/-- **`IsCached` compares a pod with its latest add.** After every sequence of `AddPod` and
`DeleteByKey` calls from `NewPodCache()`, `IsCached(pod)` holds exactly when the pod's labels are
deeply equal to those of the latest `AddPod` of its UID not deleted since and its namespace is
that pod's, a pod deleted or never added read as nil labels in the empty namespace, and its owner
references are those of the last `AddPod` of its UID, deleted or not. -/
theorem isCached_runPodCalls (calls : List PodCall) (pod : Resource) :
    (runPodCalls calls).isCached pod = true ↔
      GoMap.deepEqualNil ((latestAddedPod calls pod.uid).bind (·.labels)) pod.labels = true ∧
        ((latestAddedPod calls pod.uid).map (·.ns)).getD "" = pod.ns ∧
        (lastAddedPod calls pod.uid).bind (·.ownerReferences) = pod.ownerReferences := by
  have h := follows_runPodCalls calls pod.uid
  simp only [isCached, GoMap.getD, h.labels, h.ns, h.ownerReferences, Bool.and_eq_true, beq_iff_eq,
    and_assoc]
  cases latestAddedPod calls pod.uid <;> cases lastAddedPod calls pod.uid <;> rfl

end PodCache

/-! ### The namespace index after a history -/

/-- The pod stored under `u` and whether the set of the namespace `n` holds `u`, after one more
call: `AddPod` of `u` adds it to the set of its namespace, and `DeleteByKey` of `u` removes it
from the set of the namespace cached for it only. -/
def PodCall.indexed (n : String) (u : UID) (acc : Option Resource × Bool) :
    PodCall → Option Resource × Bool
  | .addPod pod => if pod.uid = u then (some pod, acc.2 || decide (pod.ns = n)) else acc
  | .deleteByKey key =>
      if key = u then (none, acc.2 && !decide ((acc.1.map (·.ns)).getD "" = n)) else acc

/-- Whether the set of the namespace `n` holds `u` after a sequence of calls from
`NewPodCache()`. -/
def indexedIn (calls : List PodCall) (n : String) (u : UID) : Bool :=
  (calls.foldl (PodCall.indexed n u) (none, false)).2

namespace PodCache

open GoMap

variable {pc : PodCache} {n : String} {u : UID} {acc : Option Resource × Bool}

/-- The cache stores the namespace of the pod of `acc` for `u`, and the set of `n` holds `u` as
`acc` says. -/
structure IndexFollows (n : String) (u : UID) (pc : PodCache) (acc : Option Resource × Bool) :
    Prop where
  ns : pc.podUIDNamespaceCache.lookup u = acc.1.map (·.ns)
  indexed : pc.namespacePodUIDCache.Has n u ↔ acc.2 = true

theorem IndexFollows.apply (h : IndexFollows n u pc acc) (c : PodCall) :
    IndexFollows n u (pc.apply c) (PodCall.indexed n u acc c) := by
  cases c with
  | addPod pod =>
      simp only [PodCall.indexed]
      rcases eq_or_ne pod.uid u with rfl | hu
      · exact ⟨by simp [PodCache.apply, PodCache.addPod],
          by simpa [PodCache.apply, PodCache.addPod, has_addTo, h.indexed] using
            or_comm.trans (or_congr_right eq_comm)⟩
      · rw [if_neg hu]
        exact ⟨by simpa [PodCache.apply, PodCache.addPod, AList.lookup_insert_ne (Ne.symm hu)]
            using h.ns,
          by simpa [PodCache.apply, PodCache.addPod, has_addTo, Ne.symm hu] using h.indexed⟩
  | deleteByKey key =>
      simp only [PodCall.indexed]
      rcases eq_or_ne key u with rfl | hu
      · refine ⟨by simp [PodCache.apply, PodCache.deleteByKey], ?_⟩
        simpa [PodCache.apply, PodCache.deleteByKey, has_removeFrom, h.indexed, getD, h.ns] using
          and_comm.trans (and_congr_right fun _ => ne_comm)
      · rw [if_neg hu]
        exact ⟨by simpa [PodCache.apply, PodCache.deleteByKey, AList.lookup_erase_ne (Ne.symm hu)]
            using h.ns,
          by simpa [PodCache.apply, PodCache.deleteByKey, has_removeFrom, Ne.symm hu] using
            h.indexed⟩

theorem IndexFollows.foldl (h : IndexFollows n u pc acc) (calls : List PodCall) :
    IndexFollows n u (calls.foldl PodCache.apply pc) (calls.foldl (PodCall.indexed n u) acc) := by
  induction calls generalizing pc acc with
  | nil => exact h
  | cons c cs ih => exact ih (h.apply c)

/-- **The namespace index after a history.** After every sequence of calls from `NewPodCache()`,
`GetPodsInNamespace(n)` lists `u`, once, exactly when an `AddPod` of `u` in `n` is not followed
by a `DeleteByKey` of `u` made while `n` was the namespace cached for `u`: a pod moved to another
namespace stays listed in the first, also after it is deleted. -/
theorem pods_in_namespace_after_history (calls : List PodCall) (n : String) (u : UID) :
    (runPodCalls calls |>.getPodsInNamespace n).Nodup ∧
      (u ∈ (runPodCalls calls).getPodsInNamespace n ↔ indexedIn calls n u = true) := by
  have h := (⟨rfl, by simp [newPodCache]⟩ : IndexFollows n u newPodCache (none, false)).foldl calls
  exact ⟨nodup_getPodsInNamespace _ n, mem_getPodsInNamespace.trans h.indexed⟩

end PodCache

end ClusterCache
