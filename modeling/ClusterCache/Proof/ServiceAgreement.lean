import ClusterCache.Proof.Runs
import ClusterCache.Proof.ServiceName

/-!
# The service property follows the join index

`GetServiceNameForPodUID` reads a pod's service set and the names of its members, nothing else.
Each operation of the join index changes the service set of one pod (`SetPod`,
`DeletePodFromCache`), or the sets of the pods joined to one service and that service's name
(`SetService`, `DeleteServiceFromCache`); the datapoint cache resolves again the service property
of exactly those pods. So, when the pod derivation gives every pod a record, the record of every
cached pod holds the name the join index resolves for it, in every state a run reaches; and when
the derived records have no `"service"` property of their own, a pod the join index gives no
service has none.
-/

namespace ClusterCache

namespace PodServiceCache

open GoMap

variable {psc o a : PodServiceCache} {pod : Resource} {svc : Service} {q s key : UID}

/-! ### What the service lookup of a pod reads -/

/-- `GetServiceNameForPodUID` reads the pod's service set and the names of its members only. -/
theorem getServiceNameForPodUID_congr
    (hset : ∀ s, o.podSvcUIDCache.Has q s ↔ a.podSvcUIDCache.Has q s)
    (hname : ∀ s, o.podSvcUIDCache.Has q s →
      o.svcUIDNameCache.getD s "" = a.svcUIDNameCache.getD s "") :
    o.getServiceNameForPodUID q = a.getServiceNameForPodUID q := by
  refine getServiceNameForPodUID_eq_of_perm ?_
  rw [getServiceNamesForPodUID_eq, getServiceNamesForPodUID_eq,
    List.map_congr_left fun s hs => hname s (mem_serviceUIDsForPodUID.1 hs)]
  exact ((List.perm_ext_iff_of_nodup (nodup_serviceUIDsForPodUID o q)
    (nodup_serviceUIDsForPodUID a q)).2 fun s => by
      rw [mem_serviceUIDsForPodUID, mem_serviceUIDsForPodUID, hset]).map _

/-- `SetPod` returns early, or stores the pod and refreshes it. -/
theorem setPod_cases (psc : PodServiceCache) (pod : Resource) :
    psc.setPod pod = psc ∨ psc.setPod pod = psc.setPodAlways pod := by
  rw [setPod_eq_setPodAlways]
  split_ifs
  · exact .inl rfl
  · exact .inr rfl

/-- `SetService` returns early, or stores the service and refreshes it. -/
theorem setService_cases (psc : PodServiceCache) (svc : Service) :
    psc.setService svc = psc ∨
      psc.setService svc = ((psc.storeService svc).refreshCacheByService svc).1 := by
  rw [setService_eq_setServiceAlways]
  split_ifs
  · exact .inl rfl
  · exact .inl rfl
  · exact .inr rfl

/-! ### The pods each operation leaves alone -/

theorem getServiceNameForPodUID_setPod_of_ne (hq : q ≠ pod.uid) :
    (psc.setPod pod).getServiceNameForPodUID q = psc.getServiceNameForPodUID q := by
  refine getServiceNameForPodUID_congr (fun s => ?_) fun s _ => by rw [setPod_svcUIDNameCache]
  rcases setPod_cases psc pod with he | he <;> rw [he]
  have hns : (psc.storePod pod).podUIDNamespaceCache.getD pod.uid "" = pod.ns :=
    getD_insert_self _ _ _ _
  obtain ⟨pairs, heq, hmem⟩ := refreshCacheByPod_fst hns
  rw [setPodAlways, heq, has_podSvc_linkAll, hmem]
  simp [hq, storePod]

/-- A pod `SetService` does not join to the service keeps its service set and the names of its
services. -/
theorem getServiceNameForPodUID_setService_of_not_has
    (hq : ¬(psc.setService svc).podSvcUIDCache.Has q svc.uid) :
    (psc.setService svc).getServiceNameForPodUID q = psc.getServiceNameForPodUID q := by
  rcases setService_cases psc svc with he | he <;> rw [he] at hq ⊢
  have hns : (psc.storeService svc).svcUIDNamespaceCache.getD svc.uid "" = svc.ns :=
    getD_insert_self _ _ _ _
  obtain ⟨pairs, heq, hmem⟩ := refreshCacheByService_fst hns
  rw [heq, has_podSvc_linkAll, not_or] at hq
  have hne : ∀ s, ((psc.storeService svc).linkAll pairs).podSvcUIDCache.Has q s → s ≠ svc.uid :=
    fun s hs h => by
      subst h
      exact hq.1 ((has_podSvc_linkAll.1 hs).resolve_right hq.2)
  rw [heq]
  refine getServiceNameForPodUID_congr (fun s => ?_) fun s hs => ?_
  · rw [has_podSvc_linkAll, hmem]
    exact or_iff_left_of_imp fun h => absurd h.1 (hne s (has_podSvc_linkAll.2 (.inr
      ((hmem q s).2 h))))
  · rw [linkAll_svcUIDNameCache]
    exact getD_insert_of_ne _ _ _ (hne s hs)

theorem getServiceNameForPodUID_deletePodFromCache_of_ne (hq : q ≠ key) :
    (psc.deletePodFromCache key).getServiceNameForPodUID q = psc.getServiceNameForPodUID q :=
  getServiceNameForPodUID_congr (fun s => by
    simp only [deletePodFromCache, has_unlink_fst, hq, ne_eq, not_false_eq_true, true_and])
    fun _ _ => rfl

/-- A pod not joined to the deleted service keeps its service set and the names of its
services. -/
theorem getServiceNameForPodUID_deleteServiceFromCache_of_not_has (h : psc.Inv)
    (hq : ¬psc.svcPodUIDCache.Has key q) :
    (psc.deleteServiceFromCache key).getServiceNameForPodUID q = psc.getServiceNameForPodUID q := by
  have hset : ∀ s, (psc.deleteServiceFromCache key).podSvcUIDCache.Has q s ↔
      psc.podSvcUIDCache.Has q s := fun s => by
    simp only [deleteServiceFromCache, has_unlink_snd, hq, false_and, not_false_eq_true, and_true]
  refine getServiceNameForPodUID_congr hset fun s hs => ?_
  have hs' : s ≠ key := fun h' => hq ((h.symm q key).1 (h' ▸ (hset s).1 hs))
  simp only [deleteServiceFromCache, getD_erase, hs', if_false]

end PodServiceCache

/-- The pod derivation gives records without a `"service"` property of their own. -/
def Derivations.BareRecords (dv : Derivations) : Prop :=
  ∀ pod d, dv.dimPropsForPod pod = some d → d.properties.lookup "service" = none

namespace DatapointCache

open GoMap PodServiceCache

variable {dv : Derivations} {kindOf : UID → String} {dc dc' : DatapointCache}

/-- The record `d` of the pod `p` holds the service name the join index `psc` resolves for `p`;
and none when it resolves none, if the derived records are bare. -/
def ServiceResolved (psc : PodServiceCache) (dv : Derivations) (p : UID) (d : DimProperties) :
    Prop :=
  match psc.getServiceNameForPodUID p with
  | .ok n => d.properties.lookup "service" = some n
  | .error _ => dv.BareRecords → d.properties.lookup "service" = none

/-- Every record of a cached pod holds the service name the join index resolves for it. -/
def ServicePropsAgree (dv : Derivations) (dc : DatapointCache) : Prop :=
  ∀ p d, dc.uidKindCache.lookup p = some "Pod" → dc.dimPropCache.lookup p = some d →
    ServiceResolved dc.podServiceCache dv p d

theorem serviceResolved_resolveService (psc : PodServiceCache) (p : UID) (d : DimProperties) :
    ServiceResolved psc dv p (resolveService psc p d) := by
  unfold ServiceResolved resolveService servicePropsFor
  split <;> simp [*]

theorem serviceResolved_podRecord (psc : PodServiceCache) (pod : Resource) {d : DimProperties}
    (hd : dv.dimPropsForPod pod = some d) :
    ServiceResolved psc dv pod.uid (podRecord psc pod d) := by
  unfold ServiceResolved podRecord
  rw [getServiceNameForPod_eq_getServiceNameForPodUID]
  cases psc.getServiceNameForPodUID pod.uid with
  | ok n => simp
  | error e => exact fun hb => hb pod d hd

theorem ServiceResolved.of_eq {o a : PodServiceCache} {p : UID} {d : DimProperties}
    (h : ServiceResolved o dv p d)
    (he : a.getServiceNameForPodUID p = o.getServiceNameForPodUID p) :
    ServiceResolved a dv p d := by
  unfold ServiceResolved at h ⊢
  rw [he]
  exact h

theorem ServiceResolved.lookup_eq_of_ok {psc : PodServiceCache} {p : UID} {d : DimProperties}
    (h : ServiceResolved psc dv p d) {n : String} (hn : psc.getServiceNameForPodUID p = .ok n) :
    d.properties.lookup "service" = some n := by
  unfold ServiceResolved at h
  rw [hn] at h
  exact h

theorem ServiceResolved.lookup_eq {psc : PodServiceCache} {p : UID} {d : DimProperties}
    (h : ServiceResolved psc dv p d) (hbare : dv.BareRecords) :
    d.properties.lookup "service" = (psc.getServiceNameForPodUID p).toOption := by
  unfold ServiceResolved at h
  split at h <;> rename_i heq <;> rw [heq]
  · exact h
  · exact h hbare

theorem servicePropsAgree_newDatapointCache (b : Bool) :
    (newDatapointCache b).ServicePropsAgree dv := fun _ _ h => by
  simp [newDatapointCache] at h

/-! ### One operation -/

theorem ServicePropsAgree.handleAdd (h : dc.Inv kindOf) (hag : dc.ServicePropsAgree dv)
    (hdv : ∀ pod, (dv.dimPropsForPod pod).isSome) {obj : Object}
    {r : DatapointCache × Option UID} (hr : dc.handleAdd dv propertyLinks obj = some r) :
    r.1.ServicePropsAgree dv := by
  rcases handleAdd_cases hr with ⟨o, rfl, he⟩ | ⟨o, dc₁, rfl, hdc₁, he⟩ |
    ⟨u, k, dps, dimProps, hu, hkpod, -, he⟩ | he <;> rw [he] <;> intro p d hk hd
  · -- a pod: its own record is resolved against the new join index, the others keep theirs
    rw [storeAdd_uidKindCache (by decide)] at hk
    rw [storeAdd_dimPropCache_propertyLinks] at hd
    rw [storeAdd_podServiceCache]
    obtain ⟨d₀, hd₀⟩ := Option.isSome_iff_exists.1 (hdv o)
    simp only [hd₀, Option.map_some'] at hd
    by_cases hp : p = o.uid
    · subst hp
      rw [AList.lookup_insert, Option.some.injEq] at hd
      rw [← hd]
      exact serviceResolved_podRecord _ o hd₀
    · rw [AList.lookup_insert_ne hp] at hk hd
      exact (hag p d hk hd).of_eq (getServiceNameForPodUID_setPod_of_ne hp)
  · -- a service: the pods joined to it are resolved again, the others keep their service
    have hres := ResolvesServiceProps.of_updateServicePropForPods hdc₁
    rw [storeAdd_none_none (by decide)] at hk hd ⊢
    have hp : p ≠ o.uid := by
      rintro rfl
      simp at hk
    rw [AList.lookup_insert_ne hp, hres.uidKindCache] at hk
    rw [hres.lookup] at hd
    dsimp only
    rw [hres.podServiceCache]
    split_ifs at hd with hl
    · obtain ⟨d₀, -, rfl⟩ := Option.map_eq_some'.1 hd
      exact serviceResolved_resolveService _ _ _
    · refine (hag p d hk hd).of_eq (getServiceNameForPodUID_setService_of_not_has fun hs => hl ?_)
      exact mem_getPodUIDsForServiceUID.2 (((h.join.setService o).symm _ _).1 hs)
  · -- another kind stores under its own key only
    rw [storeAdd_uidKindCache (kind_ne_empty_of_uidKind hu)] at hk
    have hp : p ≠ u := by
      rintro rfl
      exact hkpod (Option.some.inj ((AList.lookup_insert _).symm.trans hk))
    rw [AList.lookup_insert_ne hp] at hk
    rw [storeAdd_dimPropCache_propertyLinks] at hd
    rw [storeAdd_podServiceCache]
    cases dimProps with
    | none => exact hag p d hk hd
    | some d' => exact hag p d hk (by rwa [AList.lookup_insert_ne hp] at hd)
  · exact hag p d hk hd

theorem ServicePropsAgree.deleteByKey (h : dc.Inv kindOf) (hag : dc.ServicePropsAgree dv)
    {key : UID} (hd : dc.deleteByKey key = some dc') : dc'.ServicePropsAgree dv := by
  obtain ⟨dc₁, hcase, rfl⟩ := deleteByKey_cases hd
  intro p d hk hdp
  dsimp only at hk hdp ⊢
  have hp : p ≠ key := by
    rintro rfl
    simp at hk
  rw [AList.lookup_erase_ne hp] at hk hdp
  rcases hcase with ⟨-, rfl⟩ | ⟨-, hdel⟩ | ⟨-, -, rfl⟩
  · exact (hag p d hk hdp).of_eq (getServiceNameForPodUID_deletePodFromCache_of_ne hp)
  · have hres := ResolvesServiceProps.of_updateServicePropForPods hdel
    rw [hres.uidKindCache] at hk
    rw [hres.lookup] at hdp
    rw [hres.podServiceCache]
    split_ifs at hdp with hl
    · obtain ⟨d₀, -, rfl⟩ := Option.map_eq_some'.1 hdp
      exact serviceResolved_resolveService _ _ _
    · exact (hag p d hk hdp).of_eq (getServiceNameForPodUID_deleteServiceFromCache_of_not_has
        h.join fun hs => hl (mem_getPodUIDsForServiceUID.2 hs))
  · exact hag p d hk hdp

/-! ### Runs -/

theorem ServicePropsAgree.step (h : dc.Inv kindOf) (hag : dc.ServicePropsAgree dv)
    (hdv : ∀ pod, (dv.dimPropsForPod pod).isSome) {e : Event}
    (hs : dc.step dv propertyLinks e = some dc') : dc'.ServicePropsAgree dv := by
  cases e with
  | add obj =>
      obtain ⟨r, hr, rfl⟩ := Option.map_eq_some'.1 hs
      exact hag.handleAdd h hdv hr
  | delete obj =>
      obtain ⟨r, hr, rfl⟩ := Option.map_eq_some'.1 hs
      unfold DatapointCache.handleDelete at hr
      split at hr
      · cases hr
        exact hag
      · obtain ⟨dc₁, hdc₁, rfl⟩ := Option.map_eq_some'.1 hr
        exact hag.deleteByKey h hdc₁

theorem ServicePropsAgree.run (h : dc.Inv kindOf) (hag : dc.ServicePropsAgree dv)
    (hdv : ∀ pod, (dv.dimPropsForPod pod).isSome) {events : List Event}
    (he : ∀ e ∈ events, e.Agrees kindOf) (hr : dc.run dv propertyLinks events = some dc') :
    dc'.ServicePropsAgree dv := by
  induction events generalizing dc with
  | nil =>
      cases hr
      exact hag
  | cons e es ih =>
      simp only [run, List.foldlM_cons, Option.bind_eq_bind, Option.bind_eq_some] at hr
      obtain ⟨dc₁, h₁, h₂⟩ := hr
      exact ih (h.step (he e (List.mem_cons_self _ _)) h₁) (hag.step h hdv h₁)
        (fun e' h' => he e' (List.mem_cons_of_mem _ h')) h₂

/-- From a new cache, a run of events with one kind per UID returns when the pod derivation gives
every pod a record, and reaches a state with the invariant, a record for every pod of the join
index, and service properties that agree with the join index. -/
theorem exists_run_servicePropsAgree (b : Bool) {events : List Event}
    (hkinds : OneKindPerUID events) (hdv : ∀ pod, (dv.dimPropsForPod pod).isSome) :
    ∃ σ kindOf, (newDatapointCache b).run dv propertyLinks events = some σ ∧ σ.Inv kindOf ∧
      σ.Records ∧ σ.ServicePropsAgree dv := by
  obtain ⟨kindOf, hk⟩ := hkinds
  have h₀ : (newDatapointCache b).Inv kindOf := inv_newDatapointCache b
  obtain ⟨σ, hr, h, hrec⟩ := h₀.run_records (records_newDatapointCache b) hdv
    (agrees_of_kindsAgree hk)
  exact ⟨σ, kindOf, hr, h, hrec,
    (servicePropsAgree_newDatapointCache b).run h₀ hdv (agrees_of_kindsAgree hk) hr⟩

/-- **The service property follows the join index.** When the pod derivation gives every pod a
record, no run of events in which each UID has one kind panics, and in the state it reaches the
record of every cached pod the join index gives a service holds, as its `"service"` property,
the name `GetServiceNameForPodUID` resolves for it; when the derived records have no
`"service"` property of their own, the record of every cached pod holds exactly that lookup's
result, none for a pod without a service. -/
theorem pod_service_property_follows_join_index (dv : Derivations) (b : Bool)
    (events : List Event) (hkinds : OneKindPerUID events)
    (hdv : ∀ pod, (dv.dimPropsForPod pod).isSome) :
    ∃ σ, (newDatapointCache b).run dv propertyLinks events = some σ ∧
      ∀ p d, σ.uidKindCache.lookup p = some "Pod" → σ.dimPropCache.lookup p = some d →
        (∀ n, σ.podServiceCache.getServiceNameForPodUID p = .ok n →
          d.properties.lookup "service" = some n) ∧
        ((∀ pod d', dv.dimPropsForPod pod = some d' → d'.properties.lookup "service" = none) →
          d.properties.lookup "service" = (σ.podServiceCache.getServiceNameForPodUID p).toOption) := by
  obtain ⟨σ, _, hr, -, -, hag⟩ := exists_run_servicePropsAgree b hkinds hdv
  exact ⟨σ, hr, fun p d hkp hdp =>
    ⟨fun _ => (hag p d hkp hdp).lookup_eq_of_ok, (hag p d hkp hdp).lookup_eq⟩⟩

/-- A pod joined to a service, then the service deleted: the pod's record holds the service's
name, then none. -/
theorem pod_service_property_follows_join_index_of_deleted_service :
    let svc : Service := ⟨⟨"s", "web", "ns", none, none⟩, some ((∅ : Labels).insert "app" "web")⟩
    let pod : Resource := ⟨⟨"p", "web-1", "ns", some ((∅ : Labels).insert "app" "web"), none⟩, []⟩
    let events := [Event.add (.pod pod), .add (.service svc), .delete (.service svc)]
    OneKindPerUID events ∧ (∀ pod, (podRecordsOnly.dimPropsForPod pod).isSome) ∧
      ∃ σ, (newDatapointCache false).run podRecordsOnly propertyLinks events = some σ ∧
        ∀ p d, σ.uidKindCache.lookup p = some "Pod" → σ.dimPropCache.lookup p = some d →
          (∀ n, σ.podServiceCache.getServiceNameForPodUID p = .ok n →
            d.properties.lookup "service" = some n) ∧
          ((∀ pod d', podRecordsOnly.dimPropsForPod pod = some d' →
              d'.properties.lookup "service" = none) →
            d.properties.lookup "service" =
              (σ.podServiceCache.getServiceNameForPodUID p).toOption) := by
  intro svc pod events
  have hk : OneKindPerUID events := ⟨fun u => if u = "s" then "Service" else "Pod", by
    rintro obj hobj u k hu
    simp only [events, List.mem_cons, Event.add.injEq, reduceCtorEq, List.not_mem_nil, false_or,
      or_false] at hobj
    rcases hobj with rfl | rfl <;> cases hu <;> rfl⟩
  have hdv : ∀ pod, (podRecordsOnly.dimPropsForPod pod).isSome := fun _ => rfl
  exact ⟨hk, hdv, pod_service_property_follows_join_index _ _ _ hk hdv⟩

end DatapointCache

end ClusterCache
