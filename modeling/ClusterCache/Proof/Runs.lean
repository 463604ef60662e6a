import ClusterCache.Proof.Events

/-!
# Invariants over runs

In a run where each UID is carried by objects of one kind, every pod of the join index is
cached as a pod and every service of it as a service, and every key with samples or a record
has a kind. Deleting a key therefore reaches the join index exactly when the key is in it, and
with the mirroring of the join index this purges the key from every map. When the pod
derivation always gives a record, every pod of the join index also has a record, so the
service-property updates never dereference a missing one and no run panics.
-/

namespace ClusterCache

namespace DatapointCache

open GoMap PodServiceCache

variable {dv : Derivations} {links : List PropertyLink} {kindOf : UID → String}
  {dc dc' : DatapointCache}

/-- The invariant of runs in which `kindOf` gives every UID its kind. -/
structure Inv (kindOf : UID → String) (dc : DatapointCache) : Prop where
  join : dc.podServiceCache.Inv
  kinds : ∀ u k, dc.uidKindCache.lookup u = some k → kindOf u = k
  pod_kind : ∀ p ∈ dc.podServiceCache.podUIDLabelCache, dc.uidKindCache.lookup p = some "Pod"
  svc_kind : ∀ s ∈ dc.podServiceCache.svcUIDSelectorCache,
    dc.uidKindCache.lookup s = some "Service"
  dp_kind : ∀ k ∈ dc.dpCache, k ∈ dc.uidKindCache
  rec_kind : ∀ k ∈ dc.dimPropCache, k ∈ dc.uidKindCache

theorem inv_newDatapointCache (b : Bool) : (newDatapointCache b).Inv kindOf where
  join := inv_newPodServiceCache
  kinds _ _ h := by simp [newDatapointCache] at h
  pod_kind _ h := by simp [newDatapointCache, newPodServiceCache] at h
  svc_kind _ h := by simp [newDatapointCache, newPodServiceCache] at h
  dp_kind _ h := by simp [newDatapointCache] at h
  rec_kind _ h := by simp [newDatapointCache] at h

/-- An event of a run in which `kindOf` gives every UID its kind. -/
def Event.Agrees (kindOf : UID → String) : Event → Prop
  | .add obj => ∀ u k, obj.uidKind = some (u, k) → kindOf u = k
  | .delete _ => True

theorem agrees_of_kindsAgree {events : List Event} (h : KindsAgree kindOf events) :
    ∀ e ∈ events, e.Agrees kindOf
  | .add obj, he => h obj he
  | .delete _, _ => trivial

/-- Resolving service properties changes nothing the invariant reads. -/
theorem ResolvesServiceProps.inv {podUIDs : List UID} (hres : ResolvesServiceProps dc podUIDs dc')
    (h : dc.Inv kindOf) : dc'.Inv kindOf := by
  obtain ⟨hj, hk, hp, hs, hd, hr⟩ := h
  refine ⟨?_, ?_, ?_, ?_, ?_, fun k hk' => ?_⟩ <;>
    simp only [hres.podServiceCache, hres.uidKindCache, hres.dpCache] <;> try assumption
  exact hr k (hres.mem_dimPropCache.1 hk')

/-! ### Adding -/

/-- Storing an object of kind `k` under `u` keeps the invariant, when the join index's pods and
services other than `u` are cached with their kind, and `u` is in it only as a `k`. -/
theorem inv_storeAdd {u : UID} {k : String} {dps : Option (List Datapoint)}
    {dimProps : Option DimProperties} (hjoin : dc.podServiceCache.Inv)
    (hkinds : ∀ v k', dc.uidKindCache.lookup v = some k' → kindOf v = k')
    (hdp : ∀ v ∈ dc.dpCache, v ∈ dc.uidKindCache)
    (hrec : ∀ v ∈ dc.dimPropCache, v ∈ dc.uidKindCache) (hu : kindOf u = k) (hk : k ≠ "")
    (hpod : ∀ p ∈ dc.podServiceCache.podUIDLabelCache,
      dc.uidKindCache.lookup p = some "Pod" ∨ (p = u ∧ k = "Pod"))
    (hsvc : ∀ s ∈ dc.podServiceCache.svcUIDSelectorCache,
      dc.uidKindCache.lookup s = some "Service" ∨ (s = u ∧ k = "Service")) :
    (dc.storeAdd links u dps dimProps k).Inv kindOf := by
  have hlookup : ∀ v, (dc.storeAdd links u dps dimProps k).uidKindCache.lookup v =
      if v = u then some k else dc.uidKindCache.lookup v := fun v => by
    rw [storeAdd_uidKindCache hk]
    split_ifs with hv
    · subst hv
      exact AList.lookup_insert _
    · exact AList.lookup_insert_ne hv
  have hmem : ∀ v, v = u ∨ v ∈ dc.uidKindCache →
      v ∈ (dc.storeAdd links u dps dimProps k).uidKindCache := fun v hv => by
    rw [storeAdd_uidKindCache hk]
    exact (AList.mem_insert _).2 hv
  have hkept : ∀ v kv, dc.uidKindCache.lookup v = some kv ∨ (v = u ∧ k = kv) →
      (dc.storeAdd links u dps dimProps k).uidKindCache.lookup v = some kv := by
    rintro v kv (h' | ⟨rfl, rfl⟩) <;> rw [hlookup]
    · split_ifs with hvu
      · subst hvu
        rw [← hu, hkinds v _ h']
      · exact h'
    · exact if_pos rfl
  refine ⟨by simpa using hjoin, fun v k' hv => ?_,
    fun p hp => hkept p _ (hpod p (storeAdd_podServiceCache ▸ hp)),
    fun s hs => hkept s _ (hsvc s (storeAdd_podServiceCache ▸ hs)),
    fun v hv => hmem v ((mem_storeAdd_dpCache hv).imp_right (hdp v)),
    fun v hv => hmem v ?_⟩
  · rw [hlookup] at hv
    split_ifs at hv with hvu
    · subst hvu
      cases hv
      exact hu
    · exact hkinds v k' hv
  · rcases mem_storeAdd_dimPropCache.1 hv with ⟨rfl, -⟩ | hv
    exacts [.inl rfl, .inr (hrec v hv)]

/-- Storing a service's kind commutes with resolving the service properties of its pods. -/
theorem ResolvesServiceProps.storeAdd {podUIDs : List UID}
    (h : ResolvesServiceProps dc podUIDs dc') (u : UID) {k : String} (hk : k ≠ "") :
    ResolvesServiceProps (dc.storeAdd links u none none k) podUIDs
      (dc'.storeAdd links u none none k) := by
  rw [storeAdd_none_none hk, storeAdd_none_none hk]
  exact ⟨congrArg (AList.insert u k) h.uidKindCache, h.dpCache, h.podServiceCache,
    h.useNodeName, h.lookup⟩

theorem Inv.handleAdd (h : dc.Inv kindOf) {obj : Object}
    (hagree : ∀ u k, obj.uidKind = some (u, k) → kindOf u = k)
    {r : DatapointCache × Option UID} (hr : dc.handleAdd dv links obj = some r) :
    r.1.Inv kindOf := by
  rcases handleAdd_cases hr with ⟨o, rfl, he⟩ | ⟨o, dc₁, rfl, hdc₁, he⟩ |
    ⟨u, k, dps, dimProps, hk, hpod, hsvc, he⟩ | he <;> rw [he]
  · refine inv_storeAdd (h.join.setPod o) h.kinds h.dp_kind h.rec_kind (hagree o.uid "Pod" rfl)
      (by decide) (fun p hp => ?_) (fun s hs => .inl (h.svc_kind s (by simpa using hs)))
    rcases @setPod_podUIDLabelCache dc.podServiceCache o with he | he <;> rw [he] at hp
    · exact .inl (h.pod_kind p hp)
    · rcases (AList.mem_insert _).1 hp with rfl | hp
      exacts [.inr ⟨rfl, rfl⟩, .inl (h.pod_kind p hp)]
  · have hres := ResolvesServiceProps.of_updateServicePropForPods hdc₁
    refine (hres.storeAdd o.uid (show "Service" ≠ "" by decide)).inv ?_
    refine inv_storeAdd (h.join.setService o) h.kinds h.dp_kind h.rec_kind
      (hagree o.uid "Service" rfl) (by decide)
      (fun p hp => .inl (h.pod_kind p (by simpa using hp))) (fun s hs => ?_)
    rcases @setService_svcUIDSelectorCache dc.podServiceCache o with he | he <;> rw [he] at hs
    · exact .inl (h.svc_kind s hs)
    · rcases (AList.mem_insert _).1 hs with rfl | hs
      exacts [.inr ⟨rfl, rfl⟩, .inl (h.svc_kind s hs)]
  · exact inv_storeAdd h.join h.kinds h.dp_kind h.rec_kind (hagree u k hk)
      (kind_ne_empty_of_uidKind hk) (fun p hp => .inl (h.pod_kind p hp))
      (fun s hs => .inl (h.svc_kind s hs))
  · exact h

/-! ### Deleting -/

/-- A join index with no pod and no service the cache's join index lacks keeps the
invariant. -/
theorem Inv.shrinkJoin (h : dc.Inv kindOf) {psc : PodServiceCache} (hjoin : psc.Inv)
    (hpods : ∀ p ∈ psc.podUIDLabelCache, p ∈ dc.podServiceCache.podUIDLabelCache)
    (hsvcs : ∀ s ∈ psc.svcUIDSelectorCache, s ∈ dc.podServiceCache.svcUIDSelectorCache) :
    ({ dc with podServiceCache := psc } : DatapointCache).Inv kindOf where
  join := hjoin
  kinds := h.kinds
  pod_kind p hp := h.pod_kind p (hpods p hp)
  svc_kind s hs := h.svc_kind s (hsvcs s hs)
  dp_kind := h.dp_kind
  rec_kind := h.rec_kind

/-- Removing `key` from the three maps of the cache keeps the invariant, when the join index
does not have it. -/
theorem Inv.purge (h : dc.Inv kindOf) {key : UID}
    (hpod : key ∉ dc.podServiceCache.podUIDLabelCache)
    (hsvc : key ∉ dc.podServiceCache.svcUIDSelectorCache) :
    Inv kindOf { dc with
      uidKindCache := dc.uidKindCache.erase key
      dpCache := dc.dpCache.erase key
      dimPropCache := dc.dimPropCache.erase key } where
  join := h.join
  kinds v k hv := by
    by_cases hvk : v = key
    · subst hvk
      simp at hv
    · exact h.kinds v k (by rwa [AList.lookup_erase_ne hvk] at hv)
  pod_kind p hp := by
    rw [AList.lookup_erase_ne (ne_of_mem_of_not_mem hp hpod)]
    exact h.pod_kind p hp
  svc_kind s hs := by
    rw [AList.lookup_erase_ne (ne_of_mem_of_not_mem hs hsvc)]
    exact h.svc_kind s hs
  dp_kind v hv := by
    obtain ⟨hne, hv⟩ := AList.mem_erase.1 hv
    exact AList.mem_erase.2 ⟨hne, h.dp_kind v hv⟩
  rec_kind v hv := by
    obtain ⟨hne, hv⟩ := AList.mem_erase.1 hv
    exact AList.mem_erase.2 ⟨hne, h.rec_kind v hv⟩

theorem Inv.deleteByKey (h : dc.Inv kindOf) {key : UID} (hd : dc.deleteByKey key = some dc') :
    dc'.Inv kindOf := by
  obtain ⟨dc₁, hcase, rfl⟩ := deleteByKey_cases hd
  rcases hcase with ⟨hk, rfl⟩ | ⟨hk, hdel⟩ | ⟨hnpod, hnsvc, rfl⟩
  · refine (h.shrinkJoin (h.join.deletePodFromCache key) (fun p hp => (AList.mem_erase.1 hp).2)
      fun s hs => hs).purge (fun hp => (AList.mem_erase.1 hp).1 rfl) fun hs => ?_
    simp [h.svc_kind key hs] at hk
  · have hres := ResolvesServiceProps.of_updateServicePropForPods hdel
    refine (hres.inv (h.shrinkJoin (h.join.deleteServiceFromCache key) (fun p hp => hp)
      fun s hs => (AList.mem_erase.1 hs).2)).purge ?_ ?_ <;>
      rw [hres.podServiceCache]
    · exact fun hp => by simp [h.pod_kind key hp] at hk
    · exact fun hs => (AList.mem_erase.1 hs).1 rfl
  · exact h.purge (fun hp => hnpod (h.pod_kind key hp)) fun hs => hnsvc (h.svc_kind key hs)

theorem Inv.handleDelete (h : dc.Inv kindOf) {obj : Object} {r : DatapointCache × Option UID}
    (hr : dc.handleDelete obj = some r) : r.1.Inv kindOf := by
  unfold DatapointCache.handleDelete at hr
  split at hr
  · cases hr
    exact h
  · obtain ⟨dc₁, hdc₁, rfl⟩ := Option.map_eq_some'.1 hr
    exact h.deleteByKey hdc₁

/-! ### Runs -/

theorem Inv.step (h : dc.Inv kindOf) {e : Event} (he : e.Agrees kindOf)
    (hs : dc.step dv links e = some dc') : dc'.Inv kindOf := by
  cases e with
  | add obj =>
      obtain ⟨r, hr, rfl⟩ := Option.map_eq_some'.1 hs
      exact h.handleAdd he hr
  | delete obj =>
      obtain ⟨r, hr, rfl⟩ := Option.map_eq_some'.1 hs
      exact h.handleDelete hr

theorem Inv.run (h : dc.Inv kindOf) {events : List Event} (he : ∀ e ∈ events, e.Agrees kindOf)
    (hr : dc.run dv links events = some dc') : dc'.Inv kindOf := by
  induction events generalizing dc with
  | nil =>
      cases hr
      exact h
  | cons e es ih =>
      simp only [run, List.foldlM_cons, Option.bind_eq_bind, Option.bind_eq_some] at hr
      obtain ⟨dc₁, h₁, h₂⟩ := hr
      exact ih (h.step (he e (List.mem_cons_self _ _)) h₁)
        (fun e' h' => he e' (List.mem_cons_of_mem _ h')) h₂

/-- Every state a run of agreeing events reaches from a new cache has the invariant. -/
theorem inv_run {b : Bool} {events : List Event} (he : KindsAgree kindOf events)
    (hr : (newDatapointCache b).run dv links events = some dc') : dc'.Inv kindOf :=
  (inv_newDatapointCache b).run (agrees_of_kindsAgree he) hr

/-! ### Records of the join index's pods -/

/-- Every pod of the join index has a record. -/
def Records (dc : DatapointCache) : Prop :=
  ∀ p ∈ dc.podServiceCache.podUIDLabelCache, p ∈ dc.dimPropCache

theorem records_newDatapointCache (b : Bool) : (newDatapointCache b).Records := by
  simp [Records, newDatapointCache, newPodServiceCache]

theorem ResolvesServiceProps.records {podUIDs : List UID}
    (hres : ResolvesServiceProps dc podUIDs dc') (h : dc.Records) : dc'.Records := fun p hp =>
  hres.mem_dimPropCache.2 (h p (hres.podServiceCache ▸ hp))

theorem Records.storeAdd (h : dc.Records) {key : UID} {dps : Option (List Datapoint)}
    {dimProps : Option DimProperties} {kind : String} :
    (dc.storeAdd links key dps dimProps kind).Records := fun p hp =>
  mem_storeAdd_dimPropCache.2 (.inr (h p (by simpa using hp)))

/-- When the pod derivation always gives a record, adding keeps the records. -/
theorem Records.handleAdd (h : dc.Records) (hdv : ∀ pod, (dv.dimPropsForPod pod).isSome)
    {obj : Object} {r : DatapointCache × Option UID} (hr : dc.handleAdd dv links obj = some r) :
    r.1.Records := by
  rcases handleAdd_cases hr with ⟨o, rfl, he⟩ | ⟨o, dc₁, rfl, hdc₁, he⟩ |
    ⟨u, k, dps, dimProps, -, -, -, he⟩ | he <;> rw [he]
  · intro p hp
    rw [storeAdd_podServiceCache] at hp
    refine mem_storeAdd_dimPropCache.2 ?_
    rcases @setPod_podUIDLabelCache dc.podServiceCache o with he | he <;> rw [he] at hp
    · exact .inr (h p hp)
    · rcases (AList.mem_insert _).1 hp with rfl | hp
      exacts [.inl ⟨rfl, by simpa using hdv o⟩, .inr (h p hp)]
  · have hres := ResolvesServiceProps.of_updateServicePropForPods hdc₁
    refine (hres.storeAdd o.uid (show "Service" ≠ "" by decide)).records (Records.storeAdd ?_)
    exact fun p hp => h p (by simpa using hp)
  · exact h.storeAdd
  · exact h

theorem Records.deleteByKey (h : dc.Records) (hinv : dc.Inv kindOf) {key : UID}
    (hd : dc.deleteByKey key = some dc') : dc'.Records := by
  obtain ⟨dc₁, hcase, rfl⟩ := deleteByKey_cases hd
  have hpurge : ∀ {dc₂ : DatapointCache}, dc₂.Records →
      key ∉ dc₂.podServiceCache.podUIDLabelCache →
      Records { dc₂ with
        uidKindCache := dc₂.uidKindCache.erase key
        dpCache := dc₂.dpCache.erase key
        dimPropCache := dc₂.dimPropCache.erase key } := fun h₂ hkey p hp =>
    AList.mem_erase.2 ⟨ne_of_mem_of_not_mem hp hkey, h₂ p hp⟩
  rcases hcase with ⟨-, rfl⟩ | ⟨hk, hdel⟩ | ⟨hnpod, -, rfl⟩
  · exact hpurge (fun p hp => h p (AList.mem_erase.1 hp).2) fun hp => (AList.mem_erase.1 hp).1 rfl
  · have hres := ResolvesServiceProps.of_updateServicePropForPods hdel
    refine hpurge (hres.records fun p hp => h p hp) ?_
    rw [hres.podServiceCache]
    exact fun hp => by simp [hinv.pod_kind key hp] at hk
  · exact hpurge h fun hp => hnpod (hinv.pod_kind key hp)

/-! ### No panics -/

/-- The pods of any service have records. -/
theorem handleDeleteService_isSome (hjoin : dc.podServiceCache.Inv) (hrec : dc.Records)
    (key : UID) : (dc.handleDeleteService key).isSome :=
  updateServicePropForPods_isSome.2 fun p hp =>
    hrec p (hjoin.member_pod (mem_getPodUIDsForServiceUID.1 hp))

theorem handleAdd_isSome (h : dc.Inv kindOf) (hrec : dc.Records)
    (hdv : ∀ pod, (dv.dimPropsForPod pod).isSome) (obj : Object) :
    (dc.handleAdd dv links obj).isSome := by
  cases obj with
  | pod o =>
      rw [handleAdd_pod, Option.isSome_map']
      exact handleAddPod_isSome (hdv o)
  | service o =>
      rw [handleAdd_service, Option.isSome_map']
      exact updateServicePropForPods_isSome.2 fun p hp =>
        hrec p (by simpa using (h.join.setService o).member_pod (mem_getPodUIDsForServiceUID.1 hp))
  | _ => rfl

theorem handleDelete_isSome (h : dc.Inv kindOf) (hrec : dc.Records) (obj : Object) :
    (dc.handleDelete obj).isSome := by
  unfold DatapointCache.handleDelete
  split
  · rfl
  · rw [Option.isSome_map']
    exact deleteByKey_isSome (handleDeleteService_isSome h.join hrec _)

/-- From a state with the invariant and the records, a run of agreeing events returns, and its
state has both again. -/
theorem Inv.run_records (h : dc.Inv kindOf) (hrec : dc.Records)
    (hdv : ∀ pod, (dv.dimPropsForPod pod).isSome) {events : List Event}
    (he : ∀ e ∈ events, e.Agrees kindOf) :
    ∃ dc', dc.run dv links events = some dc' ∧ dc'.Inv kindOf ∧ dc'.Records := by
  induction events generalizing dc with
  | nil => exact ⟨dc, rfl, h, hrec⟩
  | cons e es ih =>
      obtain ⟨dc₁, h₁, hrec₁⟩ : ∃ dc₁, dc.step dv links e = some dc₁ ∧ dc₁.Records := by
        cases e with
        | add obj =>
            obtain ⟨r, hr⟩ : ∃ r, dc.handleAdd dv links obj = some r :=
              Option.isSome_iff_exists.1 (handleAdd_isSome h hrec hdv obj)
            exact ⟨r.1, by simp [DatapointCache.step, hr], hrec.handleAdd hdv hr⟩
        | delete obj =>
            obtain ⟨r, hr⟩ := Option.isSome_iff_exists.1 (handleDelete_isSome h hrec obj)
            refine ⟨r.1, by simp [DatapointCache.step, hr], ?_⟩
            unfold DatapointCache.handleDelete at hr
            split at hr
            · cases hr
              exact hrec
            · obtain ⟨dc₂, hdc₂, rfl⟩ := Option.map_eq_some'.1 hr
              exact hrec.deleteByKey h hdc₂
      obtain ⟨dc', hr, h', hrec'⟩ :=
        ih (h.step (he e (List.mem_cons_self _ _)) h₁) hrec₁ fun e' h' =>
          he e' (List.mem_cons_of_mem _ h')
      refine ⟨dc', ?_, h', hrec'⟩
      simpa only [DatapointCache.run, List.foldlM_cons, h₁, Option.bind_eq_bind, Option.some_bind]
        using hr

/-- When the pod derivation always gives a record, no run of events in which each UID has one
kind panics; in the state it reaches every pod of a service is cached as a pod with a record, so
resolving the service property of the pods of any service finds every record it writes. -/
theorem service_pods_have_records (dv : Derivations) (links : List PropertyLink) (b : Bool)
    (events : List Event) (hkinds : OneKindPerUID events)
    (hdv : ∀ pod, (dv.dimPropsForPod pod).isSome) :
    ∃ σ, (newDatapointCache b).run dv links events = some σ ∧
      (∀ s p, σ.podServiceCache.svcPodUIDCache.Has s p →
        p ∈ σ.dimPropCache ∧ σ.uidKindCache.lookup p = some "Pod") ∧
      ∀ s, (σ.updateServicePropForPods (σ.podServiceCache.getPodUIDsForServiceUID s)).isSome := by
  obtain ⟨kindOf, hk⟩ := hkinds
  have h₀ : (newDatapointCache b).Inv kindOf := inv_newDatapointCache b
  obtain ⟨σ, hr, h, hrec⟩ := h₀.run_records (records_newDatapointCache b) hdv
    (agrees_of_kindsAgree hk)
  refine ⟨σ, hr, fun s p hsp => ?_, fun s => updateServicePropForPods_isSome.2 fun p hp => ?_⟩
  · have hp := h.join.member_pod hsp
    exact ⟨hrec p hp, h.pod_kind p hp⟩
  · exact hrec p (h.join.member_pod (mem_getPodUIDsForServiceUID.1 hp))

/-- Derivations that give a pod an empty record and nothing else. -/
def podRecordsOnly : Derivations where
  datapointsForPod _ := none
  dimPropsForPod pod := some ⟨⟨"pod_uid", pod.uid⟩, ∅, ∅⟩
  datapointsForNamespace _ := none
  datapointsForReplicationController _ := none
  datapointsForDaemonSet _ := none
  datapointsForDeployment _ := none
  dimPropsForDeployment _ := none
  datapointsForReplicaSet _ := none
  dimPropsForReplicaSet _ := none
  datapointsForResourceQuota _ := none
  datapointsForNode _ _ := none
  dimPropsForNode _ _ := none

theorem service_pods_have_records_of_one_service :
    let svc : Service := ⟨⟨"s", "web", "ns", none, none⟩, some ((∅ : Labels).insert "app" "web")⟩
    let pod : Resource := ⟨⟨"p", "web-1", "ns", some ((∅ : Labels).insert "app" "web"), none⟩, []⟩
    let events := [Event.add (.pod pod), .add (.service svc), .delete (.pod pod)]
    OneKindPerUID events ∧ (∀ pod, (podRecordsOnly.dimPropsForPod pod).isSome) ∧
      ∃ σ, (newDatapointCache false).run podRecordsOnly propertyLinks events = some σ ∧
        (∀ s p, σ.podServiceCache.svcPodUIDCache.Has s p →
          p ∈ σ.dimPropCache ∧ σ.uidKindCache.lookup p = some "Pod") ∧
        ∀ s, (σ.updateServicePropForPods (σ.podServiceCache.getPodUIDsForServiceUID s)).isSome := by
  intro svc pod events
  have hk : OneKindPerUID events := ⟨fun u => if u = "s" then "Service" else "Pod", by
    rintro obj hobj u k hu
    simp only [events, List.mem_cons, Event.add.injEq, reduceCtorEq, List.not_mem_nil, false_or,
      or_false] at hobj
    rcases hobj with rfl | rfl <;> cases hu <;> rfl⟩
  have hdv : ∀ pod, (podRecordsOnly.dimPropsForPod pod).isSome := fun _ => rfl
  exact ⟨hk, hdv, service_pods_have_records _ _ _ _ hk hdv⟩

end DatapointCache

end ClusterCache
