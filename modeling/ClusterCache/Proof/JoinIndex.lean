import ClusterCache.PodServiceCache

/-!
# The representation invariant of the join index

The two maps of the relation mirror each other, every key and member of either names a cached
pod or service, and the per-pod and per-service field maps have one key set each. The deletes
rely on the mirroring: `DeleteServiceFromCache` finds the pods to unlink through the service's
own set only, which reaches every pod listing the service because the invariant held before the
call. So the invariant is proved for one call at a time, each call assuming it of its input.
-/

namespace ClusterCache

namespace PodServiceCache

open GoMap

/-- The representation invariant of the join index. Members of the sets need no field of their
own: by `symm` a member of one map is a key of the other. -/
structure Inv (psc : PodServiceCache) : Prop where
  symm : ∀ p s, psc.podSvcUIDCache.Has p s ↔ psc.svcPodUIDCache.Has s p
  podSvc_key : ∀ p, p ∈ psc.podSvcUIDCache → p ∈ psc.podUIDLabelCache
  svcPod_key : ∀ s, s ∈ psc.svcPodUIDCache → s ∈ psc.svcUIDSelectorCache
  name_key : ∀ s, s ∈ psc.svcUIDNameCache ↔ s ∈ psc.svcUIDSelectorCache
  svcNs_key : ∀ s, s ∈ psc.svcUIDNamespaceCache ↔ s ∈ psc.svcUIDSelectorCache
  podNs_key : ∀ p, p ∈ psc.podUIDNamespaceCache ↔ p ∈ psc.podUIDLabelCache

variable {psc : PodServiceCache} {p s : UID}

theorem inv_newPodServiceCache : Inv newPodServiceCache where
  symm _ _ := by simp [newPodServiceCache]
  podSvc_key _ := by simp [newPodServiceCache]
  svcPod_key _ := by simp [newPodServiceCache]
  name_key _ := by simp [newPodServiceCache]
  svcNs_key _ := by simp [newPodServiceCache]
  podNs_key _ := by simp [newPodServiceCache]

theorem StoredMatch.pod_mem (h : psc.StoredMatch p s) : p ∈ psc.podUIDLabelCache :=
  let ⟨_, _, _, hp, _⟩ := h
  AList.lookup_isSome.1 (by simp [hp])

theorem StoredMatch.svc_mem (h : psc.StoredMatch p s) : s ∈ psc.svcUIDSelectorCache :=
  let ⟨_, _, hs, _⟩ := h
  AList.lookup_isSome.1 (by simp [hs])

theorem Inv.member_pod (h : psc.Inv) (hs : psc.svcPodUIDCache.Has s p) : p ∈ psc.podUIDLabelCache :=
  h.podSvc_key p (mem_of_has ((h.symm p s).2 hs))

theorem Inv.member_svc (h : psc.Inv) (hp : psc.podSvcUIDCache.Has p s) :
    s ∈ psc.svcUIDSelectorCache :=
  h.svcPod_key s (mem_of_has ((h.symm p s).1 hp))

/-! ### One call at a time -/

theorem Inv.linkAll (h : psc.Inv) {pairs : List (UID × UID)}
    (hpairs : ∀ p s, (p, s) ∈ pairs → p ∈ psc.podUIDLabelCache ∧ s ∈ psc.svcUIDSelectorCache) :
    (psc.linkAll pairs).Inv where
  symm p s := by simp only [has_podSvc_linkAll, has_svcPod_linkAll, h.symm]
  podSvc_key p hp := by
    rw [mem_podSvc_linkAll] at hp
    rw [linkAll_podUIDLabelCache]
    rcases hp with hp | ⟨s, hs⟩
    exacts [h.podSvc_key p hp, (hpairs p s hs).1]
  svcPod_key s hs := by
    rw [mem_svcPod_linkAll] at hs
    rw [linkAll_svcUIDSelectorCache]
    rcases hs with hs | ⟨p, hp⟩
    exacts [h.svcPod_key s hs, (hpairs p s hp).2]
  name_key := by simpa using h.name_key
  svcNs_key := by simpa using h.svcNs_key
  podNs_key := by simpa using h.podNs_key

theorem Inv.refreshCacheByService (h : psc.Inv) {svc : Service}
    (hns : psc.svcUIDNamespaceCache.getD svc.uid "" = svc.ns) :
    (psc.refreshCacheByService svc).1.Inv := by
  obtain ⟨pairs, heq, hmem⟩ := refreshCacheByService_fst hns
  rw [heq]
  exact h.linkAll fun p s hps => ⟨((hmem p s).1 hps).2.pod_mem, ((hmem p s).1 hps).2.svc_mem⟩

theorem Inv.refreshCacheByPod (h : psc.Inv) {pod : Resource}
    (hns : psc.podUIDNamespaceCache.getD pod.uid "" = pod.ns) :
    (psc.refreshCacheByPod pod).1.Inv := by
  obtain ⟨pairs, heq, hmem⟩ := refreshCacheByPod_fst hns
  rw [heq]
  exact h.linkAll fun p s hps => ⟨((hmem p s).1 hps).2.pod_mem, ((hmem p s).1 hps).2.svc_mem⟩

theorem Inv.setService (h : psc.Inv) (svc : Service) : (psc.setService svc).Inv := by
  unfold PodServiceCache.setService
  dsimp only
  split_ifs
  · exact h
  · exact h
  · apply Inv.refreshCacheByService _ (getD_insert_self _ _ _ _)
    refine ⟨h.symm, h.podSvc_key, fun s hs => ?_, fun s => ?_, fun s => ?_, h.podNs_key⟩
    · simp [h.svcPod_key s hs]
    · simp [h.name_key]
    · simp [h.svcNs_key]

theorem Inv.setPod (h : psc.Inv) (pod : Resource) : (psc.setPod pod).Inv := by
  unfold PodServiceCache.setPod
  split_ifs
  · exact h
  · apply Inv.refreshCacheByPod _ (getD_insert_self _ _ _ _)
    refine ⟨h.symm, fun p hp => ?_, h.svcPod_key, h.name_key, h.svcNs_key, fun p => ?_⟩
    · simp [h.podSvc_key p hp]
    · simp [h.podNs_key]

theorem Inv.deleteServiceFromCache (h : psc.Inv) (svcUID : UID) :
    (psc.deleteServiceFromCache svcUID).Inv where
  symm p s := by
    simp only [PodServiceCache.deleteServiceFromCache, has_unlink_fst, has_unlink_snd, ← h.symm]
    by_cases hs : s = svcUID <;> simp [hs]
  podSvc_key p hp := by
    simp only [PodServiceCache.deleteServiceFromCache, mem_unlink_snd] at hp ⊢
    exact h.podSvc_key p hp
  svcPod_key s hs := by
    simp only [PodServiceCache.deleteServiceFromCache, mem_unlink_fst, AList.mem_erase] at hs ⊢
    exact ⟨hs.1, h.svcPod_key s hs.2⟩
  name_key s := by simp [PodServiceCache.deleteServiceFromCache, h.name_key]
  svcNs_key s := by simp [PodServiceCache.deleteServiceFromCache, h.svcNs_key]
  podNs_key := h.podNs_key

theorem Inv.deletePodFromCache (h : psc.Inv) (podUID : UID) :
    (psc.deletePodFromCache podUID).Inv where
  symm p s := by
    simp only [PodServiceCache.deletePodFromCache, has_unlink_fst, has_unlink_snd, h.symm]
    by_cases hp : p = podUID <;> simp [hp]
  podSvc_key p hp := by
    simp only [PodServiceCache.deletePodFromCache, mem_unlink_fst, AList.mem_erase] at hp ⊢
    exact ⟨hp.1, h.podSvc_key p hp.2⟩
  svcPod_key s hs := by
    simp only [PodServiceCache.deletePodFromCache, mem_unlink_snd] at hs ⊢
    exact h.svcPod_key s hs
  name_key := h.name_key
  svcNs_key := h.svcNs_key
  podNs_key p := by simp [PodServiceCache.deletePodFromCache, h.podNs_key]

theorem Inv.apply (h : psc.Inv) : ∀ c : Call, (psc.apply c).Inv
  | .setPod pod => h.setPod pod
  | .setService svc => h.setService svc
  | .deletePodFromCache podUID => h.deletePodFromCache podUID
  | .deleteServiceFromCache svcUID => h.deleteServiceFromCache svcUID

theorem Inv.foldl_apply (h : psc.Inv) (calls : List Call) :
    (calls.foldl PodServiceCache.apply psc).Inv := by
  induction calls generalizing psc with
  | nil => exact h
  | cons c calls ih => exact ih (h.apply c)

theorem inv_runCalls (calls : List Call) : (runCalls calls).Inv :=
  inv_newPodServiceCache.foldl_apply calls

/-- In every state a sequence of calls reaches from `NewPodServiceCache()`, the two maps of the
relation mirror each other, every key and member of either has the fields of its pod or
service, and the field maps of pods, and those of services, have one key set. -/
theorem runCalls_representation_invariant (calls : List Call) :
    let psc := runCalls calls
    (∀ p s, psc.podSvcUIDCache.Has p s ↔ psc.svcPodUIDCache.Has s p) ∧
    ((∀ p, p ∈ psc.podSvcUIDCache → p ∈ psc.podUIDLabelCache ∧ p ∈ psc.podUIDNamespaceCache) ∧
      (∀ s p, psc.svcPodUIDCache.Has s p →
        p ∈ psc.podUIDLabelCache ∧ p ∈ psc.podUIDNamespaceCache) ∧
      (∀ s, s ∈ psc.svcPodUIDCache → s ∈ psc.svcUIDSelectorCache ∧ s ∈ psc.svcUIDNameCache ∧
        s ∈ psc.svcUIDNamespaceCache) ∧
      (∀ p s, psc.podSvcUIDCache.Has p s → s ∈ psc.svcUIDSelectorCache ∧
        s ∈ psc.svcUIDNameCache ∧ s ∈ psc.svcUIDNamespaceCache)) ∧
    ((∀ s, (s ∈ psc.svcUIDSelectorCache ↔ s ∈ psc.svcUIDNameCache) ∧
        (s ∈ psc.svcUIDSelectorCache ↔ s ∈ psc.svcUIDNamespaceCache)) ∧
      ∀ p, p ∈ psc.podUIDLabelCache ↔ p ∈ psc.podUIDNamespaceCache) := by
  have h := inv_runCalls calls
  have pod_fields : ∀ p, p ∈ (runCalls calls).podUIDLabelCache →
      p ∈ (runCalls calls).podUIDLabelCache ∧ p ∈ (runCalls calls).podUIDNamespaceCache :=
    fun p hp => ⟨hp, (h.podNs_key p).2 hp⟩
  have svc_fields : ∀ s, s ∈ (runCalls calls).svcUIDSelectorCache →
      s ∈ (runCalls calls).svcUIDSelectorCache ∧ s ∈ (runCalls calls).svcUIDNameCache ∧
        s ∈ (runCalls calls).svcUIDNamespaceCache :=
    fun s hs => ⟨hs, (h.name_key s).2 hs, (h.svcNs_key s).2 hs⟩
  exact ⟨h.symm, ⟨fun p hp => pod_fields p (h.podSvc_key p hp),
    fun _ _ hs => pod_fields _ (h.member_pod hs), fun s hs => svc_fields s (h.svcPod_key s hs),
    fun _ _ hp => svc_fields _ (h.member_svc hp)⟩,
    fun s => ⟨(h.name_key s).symm, (h.svcNs_key s).symm⟩, fun p => (h.podNs_key p).symm⟩

end PodServiceCache

end ClusterCache
