import ClusterCache.Proof.ServiceAgreement
import ClusterCache.Proof.Frame
import ClusterCache.Proof.Idempotence

/-!
# Adding and deleting again

Setting a pod the join index does not hold stores its namespace and labels and joins it to the
services that match it; deleting it erases the two entries and unjoins it from exactly those
services. What stays behind is the pod set a service gets created for the pod, now empty, which
no lookup reads. Services are symmetric. So, in every state the calls reach, adding a new pod or
service to the join index and deleting it again gives an index that stores the same pods and
services and answers every membership query as before.

In the datapoint cache, adding an object under a UID it does not hold and deleting it again also
restores the kinds, samples and records of every key: the object's own entries are erased, and
for a service the pods it joined get their service property resolved twice, the second time
against the restored join index. That gives the property back when the pods' records held the
resolved one before, which is the case in every state when the derived pod records carry no
`"service"` property of their own.
-/

namespace ClusterCache

namespace PodServiceCache

open GoMap

variable {psc a b : PodServiceCache} {pod : Resource} {svc : Service}

/-- Two join indexes that store the same pods and services and have the same members in every
pod and service set; they may differ in sets that are empty in one and missing in the other. -/
structure SameJoin (a b : PodServiceCache) : Prop where
  svcUIDNamespaceCache : a.svcUIDNamespaceCache = b.svcUIDNamespaceCache
  svcUIDNameCache : a.svcUIDNameCache = b.svcUIDNameCache
  svcUIDSelectorCache : a.svcUIDSelectorCache = b.svcUIDSelectorCache
  podUIDLabelCache : a.podUIDLabelCache = b.podUIDLabelCache
  podUIDNamespaceCache : a.podUIDNamespaceCache = b.podUIDNamespaceCache
  podSvc : ∀ p s, a.podSvcUIDCache.Has p s ↔ b.podSvcUIDCache.Has p s
  svcPod : ∀ s p, a.svcPodUIDCache.Has s p ↔ b.svcPodUIDCache.Has s p

/-- Join indexes that are the same resolve the same service for every pod. -/
theorem SameJoin.refl (a : PodServiceCache) : SameJoin a a :=
  ⟨rfl, rfl, rfl, rfl, rfl, fun _ _ => .rfl, fun _ _ => .rfl⟩

theorem SameJoin.getServiceNameForPodUID (h : SameJoin a b) (p : UID) :
    a.getServiceNameForPodUID p = b.getServiceNameForPodUID p :=
  getServiceNameForPodUID_congr (h.podSvc p) fun _ _ => by rw [h.svcUIDNameCache]

/-- Join indexes that are the same list the same pods for every service, in some order. -/
theorem SameJoin.getPodUIDsForServiceUID (h : SameJoin a b) (s : UID) :
    (a.getPodUIDsForServiceUID s).Perm (b.getPodUIDsForServiceUID s) :=
  (List.perm_ext_iff_of_nodup (nodup_getPodUIDsForServiceUID a s)
    (nodup_getPodUIDsForServiceUID b s)).2 fun p => by
      rw [mem_getPodUIDsForServiceUID, mem_getPodUIDsForServiceUID, h.svcPod]

/-! ### Pods -/

/-- Setting a pod the index does not hold and deleting it again gives the index back. -/
theorem sameJoin_setPod_deletePodFromCache (h : psc.Inv) (hp : pod.uid ∉ psc.podUIDLabelCache) :
    SameJoin ((psc.setPod pod).deletePodFromCache pod.uid) psc := by
  have hns : pod.uid ∉ psc.podUIDNamespaceCache := fun h' => hp ((h.podNs_key _).1 h')
  have hsvc : ∀ s, ¬psc.podSvcUIDCache.Has pod.uid s := fun s hs =>
    hp (h.podSvc_key _ (mem_of_has hs))
  have hpod : ∀ s, ¬psc.svcPodUIDCache.Has s pod.uid := fun s hs => hp (h.member_pod hs)
  rcases setPod_cases psc pod with he | he <;> rw [he]
  · -- the early return: the delete finds nothing to erase
    refine ⟨rfl, rfl, rfl, erase_of_not_mem hp, erase_of_not_mem hns, fun q s => ?_,
      fun s q => ?_⟩ <;>
      simp only [deletePodFromCache, has_unlink_fst, has_unlink_snd, ne_eq]
    · by_cases hq : q = pod.uid
      · subst hq
        simp [hsvc]
      · simp [hq]
    · simp [hsvc]
  · have hns' : (psc.storePod pod).podUIDNamespaceCache.getD pod.uid "" = pod.ns :=
      getD_insert_self _ _ _ _
    obtain ⟨pairs, heq, hmem⟩ := refreshCacheByPod_fst hns'
    rw [setPodAlways, heq]
    refine ⟨?_, ?_, ?_, ?_, ?_, fun q s => ?_, fun s q => ?_⟩ <;>
      simp only [deletePodFromCache, storePod, linkAll_svcUIDNamespaceCache,
        linkAll_svcUIDNameCache, linkAll_svcUIDSelectorCache, linkAll_podUIDLabelCache,
        linkAll_podUIDNamespaceCache, erase_insert_of_not_mem hp, erase_insert_of_not_mem hns,
        has_unlink_fst, has_unlink_snd, has_podSvc_linkAll, has_svcPod_linkAll, hmem, ne_eq]
    · by_cases hq : q = pod.uid
      · subst hq
        simp [hsvc]
      · simp [hq]
    · by_cases hq : q = pod.uid
      · subst hq
        simp [hsvc, hpod]
      · simp [hq]

/-! ### Services -/

/-- Setting a service the index does not hold and deleting it again gives the index back. -/
theorem sameJoin_setService_deleteServiceFromCache (h : psc.Inv)
    (hs : svc.uid ∉ psc.svcUIDSelectorCache) :
    SameJoin ((psc.setService svc).deleteServiceFromCache svc.uid) psc := by
  have hname : svc.uid ∉ psc.svcUIDNameCache := fun h' => hs ((h.name_key _).1 h')
  have hns : svc.uid ∉ psc.svcUIDNamespaceCache := fun h' => hs ((h.svcNs_key _).1 h')
  have hpod : ∀ p, ¬psc.svcPodUIDCache.Has svc.uid p := fun p hp =>
    hs (h.svcPod_key _ (mem_of_has hp))
  have hsvc : ∀ p, ¬psc.podSvcUIDCache.Has p svc.uid := fun p hp => hs (h.member_svc hp)
  rcases setService_cases psc svc with he | he <;> rw [he]
  · -- an early return: the delete finds nothing to erase
    refine ⟨erase_of_not_mem hns, erase_of_not_mem hname, erase_of_not_mem hs, rfl, rfl,
      fun p s => ?_, fun s p => ?_⟩ <;>
      simp only [deleteServiceFromCache, has_unlink_fst, has_unlink_snd, ne_eq]
    · simp [hpod]
    · by_cases hq : s = svc.uid
      · subst hq
        simp [hpod]
      · simp [hq]
  · have hns' : (psc.storeService svc).svcUIDNamespaceCache.getD svc.uid "" = svc.ns :=
      getD_insert_self _ _ _ _
    obtain ⟨pairs, heq, hmem⟩ := refreshCacheByService_fst hns'
    rw [heq]
    refine ⟨?_, ?_, ?_, ?_, ?_, fun p s => ?_, fun s p => ?_⟩ <;>
      simp only [deleteServiceFromCache, storeService, linkAll_svcUIDNamespaceCache,
        linkAll_svcUIDNameCache, linkAll_svcUIDSelectorCache, linkAll_podUIDLabelCache,
        linkAll_podUIDNamespaceCache, erase_insert_of_not_mem hns, erase_insert_of_not_mem hname,
        erase_insert_of_not_mem hs, has_unlink_fst, has_unlink_snd, has_podSvc_linkAll,
        has_svcPod_linkAll, hmem, ne_eq]
    · by_cases hq : s = svc.uid
      · subst hq
        simp [hsvc, hpod]
      · simp [hq]
    · by_cases hq : s = svc.uid
      · subst hq
        simp [hpod]
      · simp [hq]

/-- In every state a sequence of calls reaches from `NewPodServiceCache()`, setting a pod or a
service the index does not hold and deleting it again gives an index that stores the same pods
and services and has the same members in every set. -/
theorem set_then_delete_restores_join_index (calls : List Call) :
    (∀ pod, pod.uid ∉ (runCalls calls).podUIDLabelCache →
      SameJoin (((runCalls calls).setPod pod).deletePodFromCache pod.uid) (runCalls calls)) ∧
    ∀ svc, svc.uid ∉ (runCalls calls).svcUIDSelectorCache →
      SameJoin (((runCalls calls).setService svc).deleteServiceFromCache svc.uid)
        (runCalls calls) :=
  ⟨fun _ => sameJoin_setPod_deletePodFromCache (inv_runCalls calls),
    fun _ => sameJoin_setService_deleteServiceFromCache (inv_runCalls calls)⟩

theorem set_then_delete_restores_join_index_of_matching_pod :
    let svc : Service := ⟨⟨"s", "web", "ns", none, none⟩, some ((∅ : Labels).insert "app" "web")⟩
    let pod : Resource := ⟨⟨"p", "web-1", "ns", some ((∅ : Labels).insert "app" "web"), none⟩, []⟩
    pod.uid ∉ (runCalls [.setService svc]).podUIDLabelCache ∧
      SameJoin (((runCalls [.setService svc]).setPod pod).deletePodFromCache pod.uid)
        (runCalls [.setService svc]) :=
  ⟨by decide, (set_then_delete_restores_join_index _).1 _ (by decide)⟩

end PodServiceCache

namespace DatapointCache

open GoMap PodServiceCache

variable {dv : Derivations} {kindOf : UID → String} {dc : DatapointCache} {u : UID}

/-! ### The datapoint cache -/

/-- Two records with the same dimension, the same tags and the same value for every property. -/
def SameRecord (d d' : DimProperties) : Prop :=
  d.toDimension = d'.toDimension ∧ d.tags = d'.tags ∧
    ∀ name, d.properties.lookup name = d'.properties.lookup name

/-- Two caches with the same kinds and samples, records with the same content under every key,
and join indexes that are the same. -/
structure SameCache (a b : DatapointCache) : Prop where
  uidKindCache : a.uidKindCache = b.uidKindCache
  dpCache : a.dpCache = b.dpCache
  dimPropCache : ∀ k, Option.Rel SameRecord (a.dimPropCache.lookup k) (b.dimPropCache.lookup k)
  podServiceCache : SameJoin a.podServiceCache b.podServiceCache
  useNodeName : a.useNodeName = b.useNodeName

theorem optionRel_sameRecord_refl (o : Option DimProperties) : Option.Rel SameRecord o o := by
  cases o
  · exact .none
  · exact .some ⟨rfl, rfl, fun _ => rfl⟩

theorem lookup_service_resolveService (psc : PodServiceCache) (p : UID) (d : DimProperties) :
    (resolveService psc p d).properties.lookup "service" =
      (psc.getServiceNameForPodUID p).toOption := by
  unfold resolveService servicePropsFor
  cases psc.getServiceNameForPodUID p <;> simp [Except.toOption]

/-- A pod record resolved once and then against a join index that resolves the same service as
the one it agreed with has its content back. -/
theorem sameRecord_resolveService_resolveService {psc psc₁ psc₂ : PodServiceCache} {p : UID}
    {d : DimProperties} (hres : ServiceResolved psc dv p d) (hbare : dv.BareRecords)
    (hsame : psc₂.getServiceNameForPodUID p = psc.getServiceNameForPodUID p) :
    SameRecord (resolveService psc₂ p (resolveService psc₁ p d)) d := by
  refine ⟨rfl, rfl, fun name => ?_⟩
  by_cases hn : name = "service"
  · subst hn
    rw [lookup_service_resolveService, hsame, hres.lookup_eq hbare]
  · rw [← (sameButService_resolveService psc₂ p _).2.2 name hn,
      ← (sameButService_resolveService psc₁ p d).2.2 name hn]

/-- A cache with the invariant holds nothing under a UID without a kind. -/
theorem Inv.not_mem_of_fresh (h : dc.Inv kindOf) (hu : u ∉ dc.uidKindCache) :
    u ∉ dc.dpCache ∧ u ∉ dc.dimPropCache ∧ u ∉ dc.podServiceCache.podUIDLabelCache ∧
      u ∉ dc.podServiceCache.svcUIDSelectorCache :=
  ⟨fun h' => hu (h.dp_kind u h'), fun h' => hu (h.rec_kind u h'),
    fun h' => hu (AList.lookup_isSome.1 (by simp [h.pod_kind u h'])),
    fun h' => hu (AList.lookup_isSome.1 (by simp [h.svc_kind u h']))⟩

/-- A fresh UID may be given any kind. -/
theorem Inv.update_of_fresh (h : dc.Inv kindOf) (hu : u ∉ dc.uidKindCache) (k : String) :
    dc.Inv (Function.update kindOf u k) :=
  { h with
    kinds := fun v k' hv => by
      by_cases hvu : v = u
      · subst hvu
        exact absurd (AList.lookup_isSome.1 (by simp [hv])) hu
      · rw [Function.update_noteq hvu]
        exact h.kinds v k' hv }

theorem lookup_storeAdd_self {key : UID} {dps : Option (List Datapoint)}
    {dimProps : Option DimProperties} {kind : String} (hk : kind ≠ "") :
    (dc.storeAdd propertyLinks key dps dimProps kind).uidKindCache.lookup key = some kind := by
  rw [storeAdd_uidKindCache hk, AList.lookup_insert]

theorem SameCache.refl (a : DatapointCache) : SameCache a a :=
  ⟨rfl, rfl, fun _ => optionRel_sameRecord_refl _, .refl _, rfl⟩

/-- The store step under a UID the cache holds nothing for, after the join index was replaced,
undone by the purge of `DeleteByKey` and a join index the same as the old one. -/
theorem sameCache_purge_storeAdd (hu : u ∉ dc.uidKindCache) (hdp : u ∉ dc.dpCache)
    (hdim : u ∉ dc.dimPropCache) {psc psc' : PodServiceCache} {dps : Option (List Datapoint)}
    {dimProps : Option DimProperties} {kind : String} (hk : kind ≠ "") {dc₁ : DatapointCache}
    (hdc₁ : dc₁ = ({ dc with podServiceCache := psc' } : DatapointCache).storeAdd propertyLinks u
      dps dimProps kind)
    (hpsc : SameJoin psc dc.podServiceCache) :
    SameCache { dc₁ with
      podServiceCache := psc
      uidKindCache := dc₁.uidKindCache.erase u
      dpCache := dc₁.dpCache.erase u
      dimPropCache := dc₁.dimPropCache.erase u } dc := by
  subst hdc₁
  have hrec : (({ dc with podServiceCache := psc' } : DatapointCache).storeAdd propertyLinks u
      dps dimProps kind).dimPropCache.erase u = dc.dimPropCache := by
    rw [storeAdd_dimPropCache_propertyLinks]
    cases dimProps
    exacts [erase_of_not_mem hdim, erase_insert_of_not_mem hdim _]
  refine ⟨?_, ?_, fun k => ?_, hpsc, storeAdd_useNodeName⟩
  · rw [storeAdd_uidKindCache hk]
    exact erase_insert_of_not_mem hu _
  · rw [storeAdd_dpCache]
    cases dps
    exacts [erase_of_not_mem hdp, erase_insert_of_not_mem hdp _]
  · rw [hrec]
    exact optionRel_sameRecord_refl _

/-- A service added under a UID the cache holds nothing for and deleted again: the pods it
joined get their records back when they agreed with the join index before and the derived
records are bare. -/
theorem sameCache_purge_handleDeleteService (h : dc.Inv kindOf) (hag : dc.ServicePropsAgree dv)
    (hbare : dv.BareRecords) {o : Service} (hu : o.uid ∉ dc.uidKindCache)
    {dcs dc₁ : DatapointCache} (hadd : dc.handleAddService o = some dcs)
    (hdel : (dcs.storeAdd propertyLinks o.uid none none "Service").handleDeleteService o.uid =
      some dc₁) :
    SameCache { dc₁ with
      uidKindCache := dc₁.uidKindCache.erase o.uid
      dpCache := dc₁.dpCache.erase o.uid
      dimPropCache := dc₁.dimPropCache.erase o.uid } dc := by
  obtain ⟨hdp, hdim, -, hsel⟩ := h.not_mem_of_fresh hu
  have hres₁ := ResolvesServiceProps.of_updateServicePropForPods hadd
  have hres₂ := ResolvesServiceProps.of_updateServicePropForPods hdel
  rw [storeAdd_none_none (by decide)] at hres₂
  have hjoin := sameJoin_setService_deleteServiceFromCache h.join hsel
  refine ⟨?_, ?_, fun k => ?_, ?_, ?_⟩ <;>
    simp only [hres₂.uidKindCache, hres₂.dpCache, hres₂.podServiceCache, hres₂.useNodeName,
      hres₁.uidKindCache, hres₁.dpCache, hres₁.podServiceCache, hres₁.useNodeName,
      erase_insert_of_not_mem hu, erase_of_not_mem hdp]
  · by_cases hk : k = o.uid
    · subst hk
      rw [AList.lookup_erase, AList.lookup_eq_none.2 hdim]
      exact .none
    · simp only [AList.lookup_erase_ne hk, hres₂.lookup, hres₁.lookup, hres₁.podServiceCache,
        getPodUIDsForService]
      by_cases hL : k ∈ (dc.podServiceCache.setService o).getPodUIDsForServiceUID o.uid
      · have hpod : dc.uidKindCache.lookup k = some "Pod" := h.pod_kind k (by
          simpa using (h.join.setService o).member_pod (mem_getPodUIDsForServiceUID.1 hL))
        simp only [hL, if_true]
        cases hd : dc.dimPropCache.lookup k with
        | none => exact .none
        | some d =>
            exact .some (sameRecord_resolveService_resolveService (hag k d hpod hd) hbare
              (hjoin.getServiceNameForPodUID k))
      · simp only [hL, if_false]
        exact optionRel_sameRecord_refl _
  · exact hjoin

/-- Adding an object of a handled kind under a UID the cache holds nothing for and deleting it
again gives the cache back, when the pod records agree with the join index and, for a service,
the derived records are bare. -/
theorem sameCache_handleAdd_handleDelete (h : dc.Inv kindOf) (hrec : dc.Records)
    (hag : dc.ServicePropsAgree dv) (hdv : ∀ pod, (dv.dimPropsForPod pod).isSome)
    {obj : Object} {k : String} (hobj : obj.uidKind = some (u, k)) (hu : u ∉ dc.uidKindCache)
    (hbare : (∃ o, obj = .service o) → dv.BareRecords) :
    ∃ r₁ r₂, dc.handleAdd dv propertyLinks obj = some r₁ ∧ r₁.1.handleDelete obj = some r₂ ∧
      SameCache r₂.1 dc := by
  have h' := h.update_of_fresh hu k
  have hagree : ∀ u' k', obj.uidKind = some (u', k') → Function.update kindOf u k u' = k' :=
    fun u' k' hu' => by
      rw [hobj] at hu'
      cases hu'
      exact Function.update_same _ _ _
  obtain ⟨r₁, hr₁⟩ := Option.isSome_iff_exists.1 (handleAdd_isSome h' hrec hdv obj)
  obtain ⟨r₂, hr₂⟩ := Option.isSome_iff_exists.1
    (handleDelete_isSome (h'.handleAdd hagree hr₁) (hrec.handleAdd hdv hr₁) obj)
  refine ⟨r₁, r₂, hr₁, hr₂, ?_⟩
  rw [handleDelete_of_key (keyForObject_of_uidKind hobj)] at hr₂
  obtain ⟨dc₂, hd, rfl⟩ := Option.map_eq_some'.1 hr₂
  obtain ⟨hdp, hdim, hlab, -⟩ := h.not_mem_of_fresh hu
  rcases handleAdd_cases hr₁ with ⟨o, rfl, he₁⟩ | ⟨o, dcs, rfl, hdcs, he₁⟩ |
    ⟨u', k', dps, dimProps, hu', hpod, hsvc, he₁⟩ | he₁ <;> rw [he₁] at hd
  · -- a pod
    obtain ⟨rfl, rfl⟩ : o.uid = u ∧ "Pod" = k := by simpa [Object.uidKind] using hobj
    obtain ⟨dc₁, hcase, rfl⟩ := deleteByKey_cases hd
    rcases hcase with ⟨-, rfl⟩ | ⟨hk', -⟩ | ⟨hk', -, -⟩
    · dsimp only [handleDeletePod]
      refine sameCache_purge_storeAdd hu hdp hdim (by decide) rfl ?_
      rw [storeAdd_podServiceCache]
      exact sameJoin_setPod_deletePodFromCache h.join hlab
    · exact absurd (hk'.symm.trans (lookup_storeAdd_self (by decide))) (by decide)
    · exact absurd (lookup_storeAdd_self (by decide)) hk'
  · -- a service
    obtain ⟨rfl, rfl⟩ : o.uid = u ∧ "Service" = k := by simpa [Object.uidKind] using hobj
    obtain ⟨dc₁, hcase, rfl⟩ := deleteByKey_cases hd
    rcases hcase with ⟨hk', -⟩ | ⟨-, hdel⟩ | ⟨-, hk', -⟩
    · exact absurd (hk'.symm.trans (lookup_storeAdd_self (by decide))) (by decide)
    · exact sameCache_purge_handleDeleteService h hag (hbare ⟨o, rfl⟩) hu hdcs hdel
    · exact absurd (lookup_storeAdd_self (by decide)) hk'
  · -- an object of one of the other handled kinds
    obtain ⟨rfl, rfl⟩ : u' = u ∧ k' = k := by simpa [hobj] using hu'.symm
    have hk := kind_ne_empty_of_uidKind hobj
    obtain ⟨dc₁, hcase, rfl⟩ := deleteByKey_cases hd
    rcases hcase with ⟨hk', -⟩ | ⟨hk', -⟩ | ⟨-, -, rfl⟩
    · exact absurd (Option.some.inj ((lookup_storeAdd_self hk).symm.trans hk')) hpod
    · exact absurd (Option.some.inj ((lookup_storeAdd_self hk).symm.trans hk')) hsvc
    · refine sameCache_purge_storeAdd hu hdp hdim hk rfl ?_
      rw [storeAdd_podServiceCache]
      exact .refl _
  · -- nothing stored
    cases (h.deleteByKey_of_not_mem hu).symm.trans hd
    exact .refl _

/-- In every state a run of events with one kind per UID reaches from a new cache, adding an
object of a handled kind under a UID the cache holds nothing for and deleting it again returns,
and gives a cache with the same kinds, samples and join index, and records of the same content;
for a service, when the derived pod records carry no `"service"` property of their own. -/
theorem add_then_delete_restores_cache (dv : Derivations) (b : Bool) (events : List Event)
    (hkinds : OneKindPerUID events) (hdv : ∀ pod, (dv.dimPropsForPod pod).isSome)
    {obj : Object} {u : UID} {k : String} (hobj : obj.uidKind = some (u, k))
    (hbare : (∃ o, obj = .service o) → dv.BareRecords) :
    ∃ σ, (newDatapointCache b).run dv propertyLinks events = some σ ∧
      (u ∉ σ.uidKindCache → ∃ r₁ r₂, σ.handleAdd dv propertyLinks obj = some r₁ ∧
        r₁.1.handleDelete obj = some r₂ ∧ SameCache r₂.1 σ) := by
  obtain ⟨σ, _, hr, h, hrec, hag⟩ := exists_run_servicePropsAgree b hkinds hdv
  exact ⟨σ, hr, fun hu => sameCache_handleAdd_handleDelete h hrec hag hdv hobj hu hbare⟩

theorem add_then_delete_restores_cache_of_new_service :
    let svc : Service := ⟨⟨"s", "web", "ns", none, none⟩, some ((∅ : Labels).insert "app" "web")⟩
    let pod : Resource := ⟨⟨"p", "web-1", "ns", some ((∅ : Labels).insert "app" "web"), none⟩, []⟩
    let events := [Event.add (.pod pod)]
    OneKindPerUID events ∧ (∀ pod, (podRecordsOnly.dimPropsForPod pod).isSome) ∧
      (Object.service svc).uidKind = some ("s", "Service") ∧
      ((∃ o, Object.service svc = .service o) → podRecordsOnly.BareRecords) ∧
      ∃ σ, (newDatapointCache false).run podRecordsOnly propertyLinks events = some σ ∧
        "s" ∉ σ.uidKindCache ∧ ∃ r₁ r₂, σ.handleAdd podRecordsOnly propertyLinks (.service svc) =
          some r₁ ∧ r₁.1.handleDelete (.service svc) = some r₂ ∧ SameCache r₂.1 σ := by
  intro svc pod events
  have hk : OneKindPerUID events := ⟨fun _ => "Pod", by
    rintro obj hobj u k hu
    simp only [events, List.mem_singleton, Event.add.injEq] at hobj
    subst hobj
    cases hu
    rfl⟩
  have hdv : ∀ pod, (podRecordsOnly.dimPropsForPod pod).isSome := fun _ => rfl
  have hbare : (∃ o, Object.service svc = .service o) → podRecordsOnly.BareRecords :=
    fun _ _ _ hd => by cases hd; rfl
  have hobj : (Object.service svc).uidKind = some ("s", "Service") := rfl
  obtain ⟨σ, hσ, hround⟩ :=
    add_then_delete_restores_cache podRecordsOnly false events hk hdv hobj hbare
  have hs : "s" ∉ σ.uidKindCache := by
    rw [Option.some.inj (hσ.symm.trans (Option.eq_some_of_isSome (by decide)))]
    decide
  exact ⟨hk, hdv, hobj, hbare, σ, hσ, hs, hround hs⟩

end DatapointCache

end ClusterCache
