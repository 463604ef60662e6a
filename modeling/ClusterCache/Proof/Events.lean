import ClusterCache.DatapointCache
import ClusterCache.Proof.JoinIndex

/-!
# What one event does

One lemma per operation of the datapoint cache, so that the invariants over runs never unfold
an operation twice. `updateServicePropForPods` fails exactly when a listed pod has no record,
and otherwise resolves the listed records' service property against the join index and changes
nothing else; the handled kinds other than pods and services only store; and each operation on
the join index is idempotent.
-/

namespace ClusterCache

namespace DatapointCache

open GoMap

variable {dv : Derivations} {links : List PropertyLink} {dc dc' : DatapointCache}

/-! ### The service property -/

/-- The properties `updateServicePropForPods` leaves on the record of `podUID`. -/
def servicePropsFor (psc : PodServiceCache) (podUID : UID) (properties : GoMap String String) :
    GoMap String String :=
  match psc.getServiceNameForPodUID podUID with
  | .error _ => properties.erase "service"
  | .ok service => properties.insert "service" service

/-- The record `updateServicePropForPods` leaves for `podUID`. -/
def resolveService (psc : PodServiceCache) (podUID : UID) (dimProps : DimProperties) :
    DimProperties :=
  { dimProps with properties := servicePropsFor psc podUID dimProps.properties }

@[simp]
theorem resolveService_resolveService (psc : PodServiceCache) (podUID : UID) (d : DimProperties) :
    resolveService psc podUID (resolveService psc podUID d) = resolveService psc podUID d := by
  unfold resolveService servicePropsFor
  split <;> simp [erase_erase_self]

theorem updateServicePropForPod_eq (podUID : UID) :
    dc.updateServicePropForPod podUID = (dc.dimPropCache.lookup podUID).map fun d =>
      { dc with dimPropCache :=
          dc.dimPropCache.insert podUID (resolveService dc.podServiceCache podUID d) } := by
  unfold updateServicePropForPod resolveService servicePropsFor
  cases dc.dimPropCache.lookup podUID <;> rfl

/-- `dc'` is `dc` with the service property of the records of `podUIDs` resolved against the
join index of `dc`, and nothing else changed. -/
structure ResolvesServiceProps (dc : DatapointCache) (podUIDs : List UID) (dc' : DatapointCache) :
    Prop where
  uidKindCache : dc'.uidKindCache = dc.uidKindCache
  dpCache : dc'.dpCache = dc.dpCache
  podServiceCache : dc'.podServiceCache = dc.podServiceCache
  useNodeName : dc'.useNodeName = dc.useNodeName
  lookup : ∀ k, dc'.dimPropCache.lookup k =
    if k ∈ podUIDs then (dc.dimPropCache.lookup k).map (resolveService dc.podServiceCache k)
    else dc.dimPropCache.lookup k

/-- `updateServicePropForPods` returns exactly when every listed pod has a record. -/
theorem updateServicePropForPods_isSome {podUIDs : List UID} :
    (dc.updateServicePropForPods podUIDs).isSome ↔ ∀ p ∈ podUIDs, p ∈ dc.dimPropCache := by
  induction podUIDs generalizing dc with
  | nil => simp [updateServicePropForPods]
  | cons p ps ih =>
      simp only [updateServicePropForPods, List.foldlM_cons, updateServicePropForPod_eq,
        List.mem_cons, forall_eq_or_imp] at ih ⊢
      cases hp : dc.dimPropCache.lookup p with
      | none => simp [AList.lookup_eq_none.1 hp]
      | some d =>
          have hpm : p ∈ dc.dimPropCache := AList.lookup_isSome.1 (by simp [hp])
          simp only [Option.map_some', Option.bind_eq_bind, Option.some_bind, ih,
            AList.mem_insert, hpm, true_and]
          exact forall₂_congr fun q _ => or_iff_right_of_imp fun h => h ▸ hpm

theorem ResolvesServiceProps.of_updateServicePropForPods {podUIDs : List UID}
    (h : dc.updateServicePropForPods podUIDs = some dc') : ResolvesServiceProps dc podUIDs dc' := by
  induction podUIDs generalizing dc with
  | nil =>
      cases h
      exact ⟨rfl, rfl, rfl, rfl, by simp⟩
  | cons p ps ih =>
      simp only [updateServicePropForPods, List.foldlM_cons, updateServicePropForPod_eq] at h
      cases hp : dc.dimPropCache.lookup p with
      | none => simp [hp] at h
      | some d =>
          simp only [hp, Option.map_some', Option.bind_eq_bind, Option.some_bind] at h
          have hr := ih h
          refine ⟨hr.uidKindCache, hr.dpCache, hr.podServiceCache, hr.useNodeName, fun k => ?_⟩
          rw [hr.lookup k]
          by_cases hk : k = p
          · subst hk
            simp [hp]
          · simp [hk, AList.lookup_insert_ne hk, hr.podServiceCache]

/-! ### Adding -/

/-- The record `handleAddPod` returns for a derived record `d`. -/
def podRecord (psc : PodServiceCache) (pod : Resource) (d : DimProperties) : DimProperties :=
  match psc.getServiceNameForPod pod with
  | .ok service => { d with properties := d.properties.insert "service" service }
  | .error _ => d

theorem handleAddPod_eq_some {pod : Resource}
    {r : DatapointCache × Option (List Datapoint) × Option DimProperties}
    (h : dc.handleAddPod dv pod = some r) :
    r = ({ dc with podServiceCache := dc.podServiceCache.setPod pod }, dv.datapointsForPod pod,
      (dv.dimPropsForPod pod).map (podRecord (dc.podServiceCache.setPod pod) pod)) := by
  unfold handleAddPod at h
  unfold podRecord
  dsimp only at h
  cases hs : (dc.podServiceCache.setPod pod).getServiceNameForPod pod <;>
    cases hd : dv.dimPropsForPod pod <;> simp only [hs, hd, Option.some.injEq, reduceCtorEq] at h <;>
    simp [← h]

/-- `handleAddPod` returns when the pod has a record. -/
theorem handleAddPod_isSome {pod : Resource} (h : (dv.dimPropsForPod pod).isSome) :
    (dc.handleAddPod dv pod).isSome := by
  unfold handleAddPod
  dsimp only
  cases hs : (dc.podServiceCache.setPod pod).getServiceNameForPod pod <;>
    cases hd : dv.dimPropsForPod pod <;> simp_all

@[simp] theorem storeAdd_podServiceCache {key : UID} {dps : Option (List Datapoint)}
    {dimProps : Option DimProperties} {kind : String} :
    (dc.storeAdd links key dps dimProps kind).podServiceCache = dc.podServiceCache := by
  cases dps <;> cases dimProps <;> simp [storeAdd, addDimPropsToCache, addDimPropsToCacheBy]
    <;> split_ifs <;> rfl

theorem storeAdd_uidKindCache {key : UID} {dps : Option (List Datapoint)}
    {dimProps : Option DimProperties} {kind : String} (hk : kind ≠ "") :
    (dc.storeAdd links key dps dimProps kind).uidKindCache = dc.uidKindCache.insert key kind := by
  cases dps <;> cases dimProps <;> simp [storeAdd, addDimPropsToCache, addDimPropsToCacheBy, hk]

theorem storeAdd_dpCache {key : UID} {dps : Option (List Datapoint)}
    {dimProps : Option DimProperties} {kind : String} :
    (dc.storeAdd links key dps dimProps kind).dpCache =
      match dps with
      | some dps => dc.dpCache.insert key dps
      | none => dc.dpCache := by
  cases dps <;> cases dimProps <;> simp [storeAdd, addDimPropsToCache, addDimPropsToCacheBy]
    <;> split_ifs <;> rfl

/-- Without links, the store step stores the record as it is. -/
theorem storeAdd_dimPropCache_propertyLinks {key : UID} {dps : Option (List Datapoint)}
    {dimProps : Option DimProperties} {kind : String} :
    (dc.storeAdd propertyLinks key dps dimProps kind).dimPropCache =
      match dimProps with
      | some d => dc.dimPropCache.insert key d
      | none => dc.dimPropCache := by
  cases dps <;> cases dimProps <;> simp [storeAdd, addDimPropsToCache, addDimPropsToCacheBy]
    <;> split_ifs <;> rfl

theorem storeAdd_none_none {key : UID} {kind : String} (hk : kind ≠ "") :
    dc.storeAdd links key none none kind =
      { dc with uidKindCache := dc.uidKindCache.insert key kind } := by
  simp [storeAdd, hk]

theorem handleAdd_pod (o : Resource) :
    dc.handleAdd dv links (.pod o) = (dc.handleAddPod dv o).map fun r =>
      (r.1.storeAdd links o.uid r.2.1 r.2.2 "Pod", some o.uid) := by
  simp only [handleAdd, handleAddSwitch, Option.map_map]
  rfl

theorem handleAdd_service (o : Service) :
    dc.handleAdd dv links (.service o) = (dc.handleAddService o).map fun dc' =>
      (dc'.storeAdd links o.uid none none "Service", some o.uid) := by
  simp only [handleAdd, handleAddSwitch, Option.map_map]
  rfl

/-- No handled kind has the empty tag. -/
theorem kind_ne_empty_of_uidKind {obj : Object} {u : UID} {k : String} (h : obj.uidKind = some (u, k)) : k ≠ "" := by
  cases obj <;> simp only [Object.uidKind, Option.some.injEq, Prod.mk.injEq, reduceCtorEq] at h <;>
    rw [← h.2] <;> decide

/-- What `handleAdd` can do: store a pod after setting it in the join index, store a service
after setting it and resolving the service property of its pods, store an object of one of the
other seven handled kinds, or leave the cache alone. -/
theorem handleAdd_cases {obj : Object} {r : DatapointCache × Option UID}
    (hr : dc.handleAdd dv links obj = some r) :
    (∃ o, obj = .pod o ∧
      r.1 = ({ dc with podServiceCache := dc.podServiceCache.setPod o } : DatapointCache).storeAdd
        links o.uid (dv.datapointsForPod o)
        ((dv.dimPropsForPod o).map (podRecord (dc.podServiceCache.setPod o) o)) "Pod") ∨
    (∃ o dc₁, obj = .service o ∧ dc.handleAddService o = some dc₁ ∧
      r.1 = dc₁.storeAdd links o.uid none none "Service") ∨
    (∃ u k dps dimProps, obj.uidKind = some (u, k) ∧ k ≠ "Pod" ∧ k ≠ "Service" ∧
      r.1 = dc.storeAdd links u dps dimProps k) ∨
    r.1 = dc := by
  cases obj
  case pod o =>
    rw [handleAdd_pod] at hr
    obtain ⟨d, hd, rfl⟩ := Option.map_eq_some'.1 hr
    exact .inl ⟨o, rfl, by rw [handleAddPod_eq_some hd]⟩
  case service o =>
    rw [handleAdd_service] at hr
    obtain ⟨dc₁, hdc₁, rfl⟩ := Option.map_eq_some'.1 hr
    exact .inr (.inl ⟨o, dc₁, rfl, hdc₁, rfl⟩)
  case other m =>
    cases hr
    exact .inr (.inr (.inr rfl))
  all_goals
    simp only [handleAdd, handleAddSwitch, keyForObject, Option.map_some', Option.some.injEq] at hr
    subst hr
    dsimp only
    exact .inr (.inr (.inl ⟨_, _, _, _, rfl, by decide, by decide, rfl⟩))

/-! ### Deleting -/

/-- What `deleteByKey` can do: forget the key in the join index as a pod or as a service, or
leave the join index alone, according to the key's cached kind; then purge the key. -/
theorem deleteByKey_cases {key : UID} (hd : dc.deleteByKey key = some dc') :
    ∃ dc₁, ((dc.uidKindCache.lookup key = some "Pod" ∧ dc₁ = dc.handleDeletePod key) ∨
      (dc.uidKindCache.lookup key = some "Service" ∧ dc.handleDeleteService key = some dc₁) ∨
      (dc.uidKindCache.lookup key ≠ some "Pod" ∧ dc.uidKindCache.lookup key ≠ some "Service" ∧
        dc₁ = dc)) ∧
    dc' = { dc₁ with
      uidKindCache := dc₁.uidKindCache.erase key
      dpCache := dc₁.dpCache.erase key
      dimPropCache := dc₁.dimPropCache.erase key } := by
  unfold DatapointCache.deleteByKey at hd
  obtain ⟨dc₁, hdc₁, rfl⟩ := Option.map_eq_some'.1 hd
  refine ⟨dc₁, ?_, rfl⟩
  split at hdc₁
  · next hk => exact .inl ⟨lookup_eq_some_of_getD hk (by decide), (Option.some.inj hdc₁).symm⟩
  · next hk => exact .inr (.inl ⟨lookup_eq_some_of_getD hk (by decide), hdc₁⟩)
  · next hpod hsvc =>
      exact .inr (.inr ⟨fun h => hpod (getD_of_lookup_eq_some h),
        fun h => hsvc (getD_of_lookup_eq_some h), (Option.some.inj hdc₁).symm⟩)

/-- `deleteByKey` returns when the service delete does. -/
theorem deleteByKey_isSome {key : UID} (h : (dc.handleDeleteService key).isSome) :
    (dc.deleteByKey key).isSome := by
  unfold DatapointCache.deleteByKey
  split <;> simp [h]

/-! ### Keys of the record map -/

theorem mem_linkToTargets {link : PropertyLink} {uidKindCache : GoMap UID String}
    {order : List UID} {dimProps : DimProperties} {cache : GoMap UID DimProperties} {k : UID} :
    k ∈ linkToTargets link uidKindCache order dimProps cache ↔ k ∈ cache := by
  induction order generalizing cache with
  | nil => rfl
  | cons x xs ih =>
      simp only [linkToTargets, List.foldl_cons] at ih ⊢
      rw [ih]
      split
      · next d hd =>
          split_ifs
          · exact (AList.mem_insert _).trans
              (or_iff_right_of_imp fun h => h ▸ AList.lookup_isSome.1 (by simp [hd]))
          · rfl
      · rfl

theorem mem_foldl_applyLink {enum : GoMap UID DimProperties → List UID}
    {uidKindCache : GoMap UID String} {key k : UID} (links : List PropertyLink)
    (acc : DimProperties × GoMap UID DimProperties) :
    k ∈ (links.foldl (applyLink enum uidKindCache key) acc).2 ↔ k ∈ acc.2 := by
  induction links generalizing acc with
  | nil => rfl
  | cons l ls ih =>
      rw [List.foldl_cons, ih]
      unfold applyLink
      dsimp only
      split_ifs <;> first | exact mem_linkToTargets | exact Iff.rfl

/-- The links only write records that are cached; the record map gains the key alone. -/
theorem mem_addDimPropsToCacheBy {enum : GoMap UID DimProperties → List UID} {key k : UID}
    {dimProps : DimProperties} :
    k ∈ (dc.addDimPropsToCacheBy enum links key dimProps).dimPropCache ↔
      k = key ∨ k ∈ dc.dimPropCache := by
  simp only [addDimPropsToCacheBy, AList.mem_insert, mem_foldl_applyLink]

theorem mem_storeAdd_dimPropCache {key k : UID} {dps : Option (List Datapoint)}
    {dimProps : Option DimProperties} {kind : String} :
    k ∈ (dc.storeAdd links key dps dimProps kind).dimPropCache ↔
      (k = key ∧ dimProps.isSome) ∨ k ∈ dc.dimPropCache := by
  cases dps <;> cases dimProps <;> simp only [storeAdd, addDimPropsToCache] <;> split_ifs <;>
    simp [mem_addDimPropsToCacheBy]

theorem mem_storeAdd_dpCache {key k : UID} {dps : Option (List Datapoint)}
    {dimProps : Option DimProperties} {kind : String}
    (h : k ∈ (dc.storeAdd links key dps dimProps kind).dpCache) : k = key ∨ k ∈ dc.dpCache := by
  rw [storeAdd_dpCache] at h
  cases dps
  · exact .inr h
  · exact (AList.mem_insert _).1 h

theorem ResolvesServiceProps.mem_dimPropCache {podUIDs : List UID}
    (h : ResolvesServiceProps dc podUIDs dc') {k : UID} :
    k ∈ dc'.dimPropCache ↔ k ∈ dc.dimPropCache := by
  rw [← AList.lookup_isSome, ← AList.lookup_isSome, h.lookup]
  split_ifs <;> simp

end DatapointCache

end ClusterCache
