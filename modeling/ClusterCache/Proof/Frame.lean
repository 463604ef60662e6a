import ClusterCache.Proof.Runs

/-!
# What one event touches

A delete purges its key: the key leaves the three maps of the cache, and, because every pod and
service of the join index is cached with its kind, the key leaves the join index too, as a key
and as a member of every set. A key without a kind is in no map at all, so deleting it changes
nothing.

Every other key keeps its kind, samples and record, with one exception: adding or deleting a
service resolves again the service property of the pods joined to it, before the event for a
delete and after it for an add, and a resolution changes that one property only.
-/

namespace ClusterCache

open GoMap

namespace PodServiceCache

/-- `key` is in no map of the join index, neither as a key nor as a member of a set. -/
def Forgets (psc : PodServiceCache) (key : UID) : Prop :=
  key ∉ psc.svcUIDNamespaceCache ∧ key ∉ psc.svcUIDNameCache ∧ key ∉ psc.svcUIDSelectorCache ∧
    key ∉ psc.podUIDLabelCache ∧ key ∉ psc.podUIDNamespaceCache ∧ key ∉ psc.podSvcUIDCache ∧
    key ∉ psc.svcPodUIDCache ∧
    ∀ x, ¬psc.podSvcUIDCache.Has x key ∧ ¬psc.svcPodUIDCache.Has x key

/-- A join index with the invariant forgets a key that is neither a pod nor a service of it. -/
theorem Inv.forgets {psc : PodServiceCache} (h : psc.Inv) {key : UID}
    (hpod : key ∉ psc.podUIDLabelCache) (hsvc : key ∉ psc.svcUIDSelectorCache) :
    psc.Forgets key :=
  ⟨mt (h.svcNs_key key).1 hsvc, mt (h.name_key key).1 hsvc, hsvc, hpod,
    mt (h.podNs_key key).1 hpod, mt (h.podSvc_key key) hpod, mt (h.svcPod_key key) hsvc,
    fun _ => ⟨mt h.member_svc hsvc, mt h.member_pod hpod⟩⟩

end PodServiceCache

namespace DatapointCache

open PodServiceCache

variable {dv : Derivations} {kindOf : UID → String} {dc dc' dc₁ : DatapointCache}
  {k k' : UID}

/-! ### Deleting purges the key -/

/-- `key` is in no map of the cache or of its join index. -/
def Forgotten (key : UID) (dc : DatapointCache) : Prop :=
  key ∉ dc.uidKindCache ∧ key ∉ dc.dpCache ∧ key ∉ dc.dimPropCache ∧
    dc.podServiceCache.Forgets key

/-- A key without a kind is nowhere. -/
theorem Inv.forgotten (h : dc.Inv kindOf) (hk : k ∉ dc.uidKindCache) : Forgotten k dc :=
  ⟨hk, mt (h.dp_kind k) hk, mt (h.rec_kind k) hk,
    h.join.forgets (fun hp => hk (AList.lookup_isSome.1 (by rw [h.pod_kind k hp]; rfl)))
      fun hs => hk (AList.lookup_isSome.1 (by rw [h.svc_kind k hs]; rfl))⟩

theorem not_mem_uidKindCache_deleteByKey (hd : dc.deleteByKey k = some dc') :
    k ∉ dc'.uidKindCache := by
  obtain ⟨dc₁, -, rfl⟩ := deleteByKey_cases hd
  exact fun hk => (AList.mem_erase.1 hk).1 rfl

theorem Inv.forgotten_deleteByKey (h : dc.Inv kindOf) (hd : dc.deleteByKey k = some dc') :
    Forgotten k dc' :=
  (h.deleteByKey hd).forgotten (not_mem_uidKindCache_deleteByKey hd)

/-- Deleting a key without a kind changes nothing. -/
theorem Inv.deleteByKey_of_not_mem (h : dc.Inv kindOf) (hk : k ∉ dc.uidKindCache) :
    dc.deleteByKey k = some dc := by
  have hget : dc.uidKindCache.getD k "" = "" := by simp [getD, AList.lookup_eq_none.2 hk]
  unfold DatapointCache.deleteByKey
  split
  · next hpod => simp [hget] at hpod
  · next hsvc => simp [hget] at hsvc
  · simp only [Option.map_some', erase_of_not_mem hk, erase_of_not_mem (mt (h.dp_kind k) hk),
      erase_of_not_mem (mt (h.rec_kind k) hk)]

theorem handleDelete_of_key {obj : Object} (hobj : keyForObject obj = .ok k) :
    dc.handleDelete obj = (dc.deleteByKey k).map fun dc => (dc, some k) := by
  simp only [handleDelete, hobj]

/-! ### Every other key -/

/-- Two records that differ at most in their `"service"` property. -/
def SameButService (d d' : DimProperties) : Prop :=
  d.toDimension = d'.toDimension ∧ d.tags = d'.tags ∧
    ∀ name, name ≠ "service" → d.properties.lookup name = d'.properties.lookup name

theorem sameButService_resolveService (psc : PodServiceCache) (p : UID) (d : DimProperties) :
    SameButService d (resolveService psc p d) := by
  refine ⟨rfl, rfl, fun name hname => ?_⟩
  unfold resolveService servicePropsFor
  split
  · exact (AList.lookup_erase_ne hname).symm
  · exact (AList.lookup_insert_ne hname).symm

theorem SameButService.trans {d₁ d₂ d₃ : DimProperties} (h₁ : SameButService d₁ d₂)
    (h₂ : SameButService d₂ d₃) : SameButService d₁ d₃ :=
  ⟨h₁.1.trans h₂.1, h₁.2.1.trans h₂.2.1, fun name hname => (h₁.2.2 name hname).trans (h₂.2.2 name hname)⟩

theorem sameButService_podRecord (psc : PodServiceCache) (pod : Resource) (d : DimProperties) :
    SameButService d (podRecord psc pod d) := by
  unfold podRecord
  split
  · exact ⟨rfl, rfl, fun _ hname => (AList.lookup_insert_ne hname).symm⟩
  · exact ⟨rfl, rfl, fun _ _ => rfl⟩

/-- In `dc'`, the key `k'` has the kind, samples and record it has in `dc`; only when `k'` is
a pod joined to the service `k` in `dc` or in `dc'` may its record have another service
property. -/
def KeptExceptService (k : UID) (dc dc' : DatapointCache) (k' : UID) : Prop :=
  dc'.uidKindCache.lookup k' = dc.uidKindCache.lookup k' ∧
    dc'.dpCache.lookup k' = dc.dpCache.lookup k' ∧
    (dc'.dimPropCache.lookup k' = dc.dimPropCache.lookup k' ∨
      ((dc.podServiceCache.podSvcUIDCache.Has k' k ∨
          dc'.podServiceCache.podSvcUIDCache.Has k' k) ∧
        ∃ d d', dc.dimPropCache.lookup k' = some d ∧ dc'.dimPropCache.lookup k' = some d' ∧
          SameButService d d'))

/-- Changing the join index alone keeps every key. -/
theorem keptExceptService_setJoin (psc : PodServiceCache) :
    KeptExceptService k dc { dc with podServiceCache := psc } k' :=
  ⟨rfl, rfl, .inl rfl⟩

/-- A later change that keeps the join index and the three entries of `k'` keeps `k'`. -/
theorem KeptExceptService.of_lookup_eq {dc₂ : DatapointCache}
    (h : KeptExceptService k dc dc₁ k')
    (hkind : dc₂.uidKindCache.lookup k' = dc₁.uidKindCache.lookup k')
    (hdp : dc₂.dpCache.lookup k' = dc₁.dpCache.lookup k')
    (hrec : dc₂.dimPropCache.lookup k' = dc₁.dimPropCache.lookup k')
    (hjoin : dc₂.podServiceCache = dc₁.podServiceCache) : KeptExceptService k dc dc₂ k' := by
  unfold KeptExceptService at h ⊢
  rw [hkind, hdp, hrec, hjoin]
  exact h

/-- Resolving the service property of pods joined to `k` keeps every key. -/
theorem keptExceptService_of_resolves {psc : PodServiceCache} {podUIDs : List UID}
    (hres : ResolvesServiceProps { dc with podServiceCache := psc } podUIDs dc')
    (hjoined : k' ∈ podUIDs → dc.podServiceCache.podSvcUIDCache.Has k' k ∨
      dc'.podServiceCache.podSvcUIDCache.Has k' k) :
    KeptExceptService k dc dc' k' := by
  refine ⟨by rw [hres.uidKindCache], by rw [hres.dpCache], ?_⟩
  rw [hres.lookup]
  split_ifs with hk'
  · cases hd : dc.dimPropCache.lookup k' with
    | none => exact .inl rfl
    | some d => exact .inr ⟨hjoined hk', d, _, rfl, rfl, sameButService_resolveService _ _ d⟩
  · exact .inl rfl

/-- Without links, the store step writes no key but its own. -/
theorem KeptExceptService.storeAdd (h : KeptExceptService k dc dc₁ k') {key : UID}
    (hk' : k' ≠ key) {dps : Option (List Datapoint)} {dimProps : Option DimProperties}
    {kind : String} (hkind : kind ≠ "") :
    KeptExceptService k dc (dc₁.storeAdd propertyLinks key dps dimProps kind) k' := by
  refine h.of_lookup_eq ?_ ?_ ?_ storeAdd_podServiceCache
  · rw [storeAdd_uidKindCache hkind, AList.lookup_insert_ne hk']
  · rw [storeAdd_dpCache]
    cases dps
    · rfl
    · exact AList.lookup_insert_ne hk'
  · rw [storeAdd_dimPropCache_propertyLinks]
    cases dimProps
    · rfl
    · exact AList.lookup_insert_ne hk'

/-- Purging `key` keeps every other key. -/
theorem KeptExceptService.purge (h : KeptExceptService k dc dc₁ k') {key : UID}
    (hk' : k' ≠ key) :
    KeptExceptService k dc { dc₁ with
      uidKindCache := dc₁.uidKindCache.erase key
      dpCache := dc₁.dpCache.erase key
      dimPropCache := dc₁.dimPropCache.erase key } k' :=
  h.of_lookup_eq (AList.lookup_erase_ne hk') (AList.lookup_erase_ne hk')
    (AList.lookup_erase_ne hk') rfl

theorem keyForObject_of_uidKind {obj : Object} {u : UID} {kind : String}
    (h : obj.uidKind = some (u, kind)) : keyForObject obj = .ok u := by
  cases obj <;> simp only [Object.uidKind, Option.some.injEq, Prod.mk.injEq, reduceCtorEq] at h <;>
    rw [← h.1] <;> rfl

/-- Adding an object keeps every key but its own, up to the service property of the pods the
object joins as a service. -/
theorem keptExceptService_handleAdd (hjoin : dc.podServiceCache.Inv) {obj : Object}
    (hobj : keyForObject obj = .ok k) {r : DatapointCache × Option UID}
    (hr : dc.handleAdd dv propertyLinks obj = some r) (hk' : k' ≠ k) :
    KeptExceptService k dc r.1 k' := by
  rcases handleAdd_cases hr with ⟨o, rfl, he⟩ | ⟨o, dc₁, rfl, hdc₁, he⟩ |
    ⟨u, kind, dps, dimProps, hu, -, -, he⟩ | he <;> rw [he]
  · cases hobj
    exact (keptExceptService_setJoin _).storeAdd hk' (by decide)
  · cases hobj
    have hres := ResolvesServiceProps.of_updateServicePropForPods hdc₁
    refine (keptExceptService_of_resolves hres fun hp => .inr ?_).storeAdd hk' (by decide)
    rw [hres.podServiceCache]
    exact ((hjoin.setService o).symm _ _).2 (mem_getPodUIDsForServiceUID.1 hp)
  · rw [keyForObject_of_uidKind hu] at hobj
    cases hobj
    exact (keptExceptService_setJoin dc.podServiceCache).storeAdd hk'
      (kind_ne_empty_of_uidKind hu)
  · exact keptExceptService_setJoin dc.podServiceCache

/-- Deleting an object keeps every key but its own, up to the service property of the pods
joined to it as a service. -/
theorem keptExceptService_handleDelete (hjoin : dc.podServiceCache.Inv) {obj : Object}
    (hobj : keyForObject obj = .ok k) {r : DatapointCache × Option UID}
    (hr : dc.handleDelete obj = some r) (hk' : k' ≠ k) :
    KeptExceptService k dc r.1 k' := by
  rw [handleDelete_of_key hobj] at hr
  obtain ⟨dc', hd, rfl⟩ := Option.map_eq_some'.1 hr
  obtain ⟨dc₁, hcase, rfl⟩ := deleteByKey_cases hd
  refine KeptExceptService.purge ?_ hk'
  rcases hcase with ⟨-, rfl⟩ | ⟨-, hdel⟩ | ⟨-, -, rfl⟩
  · exact keptExceptService_setJoin _
  · exact keptExceptService_of_resolves (ResolvesServiceProps.of_updateServicePropForPods hdel)
      fun hp => .inl ((hjoin.symm _ _).2 (mem_getPodUIDsForServiceUID.1 hp))
  · exact keptExceptService_setJoin _

/-- In every state a run of events with one kind per UID reaches, an event on an object with
key `k` is confined to `k`: a delete purges `k` from every map of the cache and of the join
index, and changes nothing when `k` has no kind; and neither an add nor a delete changes the
kind, samples or record of another key, except the service property of the pods joined to `k`
before or after the event. -/
theorem event_confined_to_its_key (dv : Derivations) (b : Bool) (events : List Event)
    (hkinds : OneKindPerUID events) (σ : DatapointCache)
    (hσ : (newDatapointCache b).run dv propertyLinks events = some σ) (obj : Object) {k : UID}
    (hobj : keyForObject obj = .ok k) :
    (∀ r, σ.handleDelete obj = some r → r.2 = some k ∧ Forgotten k r.1) ∧
    (k ∉ σ.uidKindCache → σ.handleDelete obj = some (σ, some k)) ∧
    (∀ r, σ.handleAdd dv propertyLinks obj = some r →
      ∀ k', k' ≠ k → KeptExceptService k σ r.1 k') ∧
    (∀ r, σ.handleDelete obj = some r → ∀ k', k' ≠ k → KeptExceptService k σ r.1 k') := by
  obtain ⟨kindOf, hk⟩ := hkinds
  have h : σ.Inv kindOf := inv_run hk hσ
  refine ⟨fun r hr => ?_, fun hk => ?_, fun r hr k' => keptExceptService_handleAdd h.join hobj hr,
    fun r hr k' => keptExceptService_handleDelete h.join hobj hr⟩
  · rw [handleDelete_of_key hobj] at hr
    obtain ⟨dc', hd, rfl⟩ := Option.map_eq_some'.1 hr
    exact ⟨rfl, h.forgotten_deleteByKey hd⟩
  · rw [handleDelete_of_key hobj, h.deleteByKey_of_not_mem hk]
    rfl

theorem event_confined_to_its_key_of_one_service :
    let svc : Service := ⟨⟨"s", "web", "ns", none, none⟩, some ((∅ : Labels).insert "app" "web")⟩
    let pod : Resource := ⟨⟨"p", "web-1", "ns", some ((∅ : Labels).insert "app" "web"), none⟩, []⟩
    let events := [Event.add (.pod pod), .add (.service svc)]
    OneKindPerUID events ∧ keyForObject (.service svc) = .ok "s" ∧
      ∃ σ, (newDatapointCache false).run podRecordsOnly propertyLinks events = some σ ∧
        (∀ r, σ.handleDelete (.service svc) = some r → r.2 = some "s" ∧ Forgotten "s" r.1) ∧
        ("s" ∉ σ.uidKindCache → σ.handleDelete (.service svc) = some (σ, some "s")) ∧
        (∀ r, σ.handleAdd podRecordsOnly propertyLinks (.service svc) = some r →
          ∀ k', k' ≠ "s" → KeptExceptService "s" σ r.1 k') ∧
        (∀ r, σ.handleDelete (.service svc) = some r →
          ∀ k', k' ≠ "s" → KeptExceptService "s" σ r.1 k') := by
  intro svc pod events
  have hk : OneKindPerUID events := ⟨fun u => if u = "s" then "Service" else "Pod", by
    rintro obj hobj u k hu
    simp only [events, List.mem_cons, Event.add.injEq, List.not_mem_nil, or_false] at hobj
    rcases hobj with rfl | rfl <;> cases hu <;> rfl⟩
  have hrun := Option.eq_some_of_isSome
    (o := (newDatapointCache false).run podRecordsOnly propertyLinks events) (by decide)
  exact ⟨hk, rfl, _, hrun,
    event_confined_to_its_key podRecordsOnly false events hk _ hrun (.service svc) rfl⟩

end DatapointCache

end ClusterCache
