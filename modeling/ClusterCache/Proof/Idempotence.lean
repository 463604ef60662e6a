import ClusterCache.Proof.Runs

/-!
# Adding an object twice

What `SetPod` and `SetService` store passes their own change tests, so a second call with the
same object takes the early return and leaves the join index as the first left it. A second
`handleAdd` then derives the same samples and record, resolves the same pods against the same
join index, and stores the same values under the same key; resolving a pod's service property
twice is resolving it once. So adding an object twice leaves the contents of the cache as adding
it once, from every state.
-/

namespace ClusterCache

open GoMap

namespace PodServiceCache

/-- What `SetPod` leaves passes its change test for the same pod. -/
theorem setPod_unchanged (psc : PodServiceCache) (pod : Resource) :
    (deepEqualNil ((psc.setPod pod).podUIDLabelCache.getD pod.uid none) pod.labels &&
      (psc.setPod pod).podUIDNamespaceCache.getD pod.uid "" == pod.ns) = true := by
  unfold setPod
  split_ifs with h
  · exact h
  · rw [refreshCacheByPod_frame podUIDLabelCache fun _ _ _ => rfl,
      refreshCacheByPod_frame podUIDNamespaceCache fun _ _ _ => rfl]
    simp [deepEqualNil_self]

@[simp]
theorem setPod_setPod (psc : PodServiceCache) (pod : Resource) :
    (psc.setPod pod).setPod pod = psc.setPod pod := by
  have h := setPod_unchanged psc pod
  generalize psc.setPod pod = q at h ⊢
  unfold setPod
  rw [if_pos h]

/-- What `SetService` leaves passes its change test for the same service, unless the service's
selector is empty. -/
theorem setService_unchanged (psc : PodServiceCache) (svc : Service) :
    (asSelectorPreValidated svc.selector).empty = true ∨
      ((match (psc.setService svc).svcUIDSelectorCache.lookup svc.uid with
          | some cachedSelector => deepEqual cachedSelector (asSelectorPreValidated svc.selector)
          | none => false) &&
        (psc.setService svc).svcUIDNameCache.getD svc.uid "" == svc.name &&
        (psc.setService svc).svcUIDNamespaceCache.getD svc.uid "" == svc.ns) = true := by
  unfold setService
  dsimp only
  split_ifs with h₁ h₂
  · exact .inl h₁
  · exact .inr h₂
  · rw [refreshCacheByService_frame svcUIDSelectorCache fun _ _ _ => rfl,
      refreshCacheByService_frame svcUIDNameCache fun _ _ _ => rfl,
      refreshCacheByService_frame svcUIDNamespaceCache fun _ _ _ => rfl]
    simp [deepEqual_self]

@[simp]
theorem setService_setService (psc : PodServiceCache) (svc : Service) :
    (psc.setService svc).setService svc = psc.setService svc := by
  have h := setService_unchanged psc svc
  generalize psc.setService svc = q at h ⊢
  unfold setService
  dsimp only
  rcases h with h | h
  · rw [if_pos h]
  · by_cases he : (asSelectorPreValidated svc.selector).empty = true
    · rw [if_pos he]
    · exact (if_neg he).trans (if_pos h)

end PodServiceCache

namespace DatapointCache

variable {dv : Derivations} {dc : DatapointCache}

/-- Two caches with the same contents: the same kinds, samples and join index, and the same
record under every key. -/
structure SameContents (dc dc' : DatapointCache) : Prop where
  uidKindCache : dc.uidKindCache = dc'.uidKindCache
  dpCache : dc.dpCache = dc'.dpCache
  dimPropCache : ∀ k, dc.dimPropCache.lookup k = dc'.dimPropCache.lookup k
  podServiceCache : dc.podServiceCache = dc'.podServiceCache

theorem SameContents.refl (dc : DatapointCache) : SameContents dc dc :=
  ⟨rfl, rfl, fun _ => rfl, rfl⟩

@[simp] theorem storeAdd_useNodeName {links : List PropertyLink} {key : UID}
    {dps : Option (List Datapoint)} {dimProps : Option DimProperties} {kind : String} :
    (dc.storeAdd links key dps dimProps kind).useNodeName = dc.useNodeName := by
  cases dps <;> cases dimProps <;> simp [storeAdd, addDimPropsToCache, addDimPropsToCacheBy]
    <;> split_ifs <;> rfl

/-- Without links, storing the same values twice is storing them once. -/
@[simp] theorem storeAdd_storeAdd {key : UID} {dps : Option (List Datapoint)}
    {dimProps : Option DimProperties} {kind : String} :
    (dc.storeAdd propertyLinks key dps dimProps kind).storeAdd propertyLinks key dps dimProps kind =
      dc.storeAdd propertyLinks key dps dimProps kind := by
  by_cases hk : kind = "" <;> cases dps <;> cases dimProps <;>
    simp [storeAdd, addDimPropsToCache, addDimPropsToCacheBy, propertyLinks, hk]

/-- `handleAddPod` reads the cache only through the join index `SetPod` leaves. -/
theorem handleAddPod_of_setPod_eq {dc' : DatapointCache} {pod : Resource}
    (h : dc'.podServiceCache.setPod pod = dc.podServiceCache.setPod pod) :
    dc'.handleAddPod dv pod = (dc.handleAddPod dv pod).map fun d =>
      ({ dc' with podServiceCache := dc.podServiceCache.setPod pod }, d.2) := by
  unfold handleAddPod
  dsimp only
  rw [h]
  cases (dc.podServiceCache.setPod pod).getServiceNameForPod pod <;>
    cases dv.dimPropsForPod pod <;> rfl

theorem handleAdd_pod_twice {o : Resource} {r : DatapointCache × Option UID}
    (hr : dc.handleAdd dv propertyLinks (.pod o) = some r) :
    r.1.handleAdd dv propertyLinks (.pod o) = some r := by
  rw [handleAdd_pod] at hr ⊢
  obtain ⟨d, hd, rfl⟩ := Option.map_eq_some'.1 hr
  have hpsc : (d.1.storeAdd propertyLinks o.uid d.2.1 d.2.2 "Pod").podServiceCache =
      dc.podServiceCache.setPod o := by
    rw [storeAdd_podServiceCache, handleAddPod_eq_some hd]
  have hset : (d.1.storeAdd propertyLinks o.uid d.2.1 d.2.2 "Pod").podServiceCache.setPod o =
      dc.podServiceCache.setPod o := by
    rw [hpsc, PodServiceCache.setPod_setPod]
  have hself : ({ d.1.storeAdd propertyLinks o.uid d.2.1 d.2.2 "Pod" with
      podServiceCache := dc.podServiceCache.setPod o } : DatapointCache) =
      d.1.storeAdd propertyLinks o.uid d.2.1 d.2.2 "Pod" := by
    rw [← hpsc]
  rw [handleAddPod_of_setPod_eq hset, hd, Option.map_some', Option.map_some']
  dsimp only
  rw [hself, storeAdd_storeAdd]

theorem handleAdd_service_twice {o : Service} {r : DatapointCache × Option UID}
    (hr : dc.handleAdd dv propertyLinks (.service o) = some r) :
    ∃ r', r.1.handleAdd dv propertyLinks (.service o) = some r' ∧ r'.2 = r.2 ∧
      SameContents r'.1 r.1 := by
  have hk : "Service" ≠ "" := by decide
  rw [handleAdd_service] at hr ⊢
  obtain ⟨dc₁, hdc₁, rfl⟩ := Option.map_eq_some'.1 hr
  have hres := ResolvesServiceProps.of_updateServicePropForPods hdc₁
  have hpsc : (dc₁.storeAdd propertyLinks o.uid none none "Service").podServiceCache =
      dc.podServiceCache.setService o := by
    rw [storeAdd_podServiceCache]
    exact hres.podServiceCache
  have hself : (dc₁.storeAdd propertyLinks o.uid none none "Service").handleAddService o =
      (dc₁.storeAdd propertyLinks o.uid none none "Service").updateServicePropForPods
        ((dc.podServiceCache.setService o).getPodUIDsForService o) := by
    unfold handleAddService
    dsimp only
    rw [hpsc, PodServiceCache.setService_setService, ← hpsc]
  obtain ⟨dc₂, hdc₂⟩ : ∃ dc₂,
      (dc₁.storeAdd propertyLinks o.uid none none "Service").updateServicePropForPods
        ((dc.podServiceCache.setService o).getPodUIDsForService o) = some dc₂ :=
    Option.isSome_iff_exists.1 (updateServicePropForPods_isSome.2 fun p hp => by
      rw [storeAdd_none_none hk]
      exact hres.mem_dimPropCache.2
        (updateServicePropForPods_isSome.1 (Option.isSome_iff_exists.2 ⟨_, hdc₁⟩) p hp))
  have hres₂ := ResolvesServiceProps.of_updateServicePropForPods hdc₂
  refine ⟨(dc₂.storeAdd propertyLinks o.uid none none "Service", some o.uid),
    by rw [hself, hdc₂]; rfl, rfl, ?_⟩
  dsimp only
  rw [storeAdd_none_none hk, storeAdd_none_none hk]
  refine ⟨?_, hres₂.dpCache, fun k => ?_, hres₂.podServiceCache⟩
  · rw [hres₂.uidKindCache, storeAdd_none_none hk]
    exact AList.insert_insert _
  · rw [hres₂.lookup, hpsc, storeAdd_none_none hk]
    dsimp only
    rw [hres.lookup]
    split_ifs
    · cases (dc.dimPropCache.lookup k) <;> simp
    · rfl

/-- Adding an object twice leaves the contents of the cache as adding it once, from every
state: the second add returns the same key, and leaves the same kinds, samples, records and join
index. -/
theorem handleAdd_idempotent (dv : Derivations) (dc : DatapointCache) (obj : Object)
    {r : DatapointCache × Option UID} (hr : dc.handleAdd dv propertyLinks obj = some r) :
    ∃ r', r.1.handleAdd dv propertyLinks obj = some r' ∧ r'.2 = r.2 ∧
      SameContents r'.1 r.1 := by
  cases obj
  case pod o => exact ⟨r, handleAdd_pod_twice hr, rfl, SameContents.refl _⟩
  case service o => exact handleAdd_service_twice hr
  case other m =>
    cases hr
    exact ⟨_, rfl, rfl, SameContents.refl _⟩
  all_goals
    simp only [handleAdd, handleAddSwitch, keyForObject, Option.map_some', Option.some.injEq] at hr
    subst hr
    refine ⟨_, rfl, rfl, ?_⟩
    simp only [keyForObject, storeAdd_useNodeName, storeAdd_storeAdd]
    exact SameContents.refl _

theorem handleAdd_idempotent_of_joined_service :
    let svc : Service := ⟨⟨"s", "web", "ns", none, none⟩, some ((∅ : Labels).insert "app" "web")⟩
    let pod : Resource := ⟨⟨"p", "web-1", "ns", some ((∅ : Labels).insert "app" "web"), none⟩, []⟩
    let dc : DatapointCache :=
      ⟨∅, (∅ : GoMap UID DimProperties).insert "p" ⟨⟨"pod_uid", "p"⟩, ∅, ∅⟩,
        (∅ : GoMap UID String).insert "p" "Pod", newPodServiceCache.setPod pod, false⟩
    ∃ r, dc.handleAdd podRecordsOnly propertyLinks (.service svc) = some r ∧
      ∃ r', r.1.handleAdd podRecordsOnly propertyLinks (.service svc) = some r' ∧ r'.2 = r.2 ∧
        SameContents r'.1 r.1 := by
  intro svc _ dc
  exact ⟨_, rfl, handleAdd_idempotent podRecordsOnly dc (.service svc) rfl⟩

end DatapointCache

end ClusterCache
