import ClusterCache.Proof.Frame
import ClusterCache.Proof.Idempotence
import ClusterCache.Proof.Snapshot

/-!
# The samples and the records follow the latest adds

`HandleAdd` stores the datapoints the derivation gives an object only when they are not nil, and
the record only when it is not nil; `DeleteByKey` deletes both. So a key holds the samples of the
latest add of it that derived any, until a delete of it: an update whose derivation gives no
samples keeps the previous version's. Nothing else writes `dpCache`, so this holds in every state
a run reaches, whatever the derivations and the links, and `AllDatapoints` reports exactly these
samples. The records follow the same rule, with the links of the source, up to the `"service"`
property: the service handlers and `handleAddPod` write only that property; and `AllDimProperties`
reports one copy of each, key by key in the order of the record map.
-/

namespace ClusterCache

/-- The datapoints `HandleAdd` derives for an object, under the node-name flag `useNodeName`. -/
def Derivations.samplesOf (dv : Derivations) (useNodeName : Bool) :
    Object → Option (List Datapoint)
  | .pod o => dv.datapointsForPod o
  | .namespace' o => dv.datapointsForNamespace o
  | .replicationController o => dv.datapointsForReplicationController o
  | .daemonSet o => dv.datapointsForDaemonSet o
  | .deployment o => dv.datapointsForDeployment o
  | .replicaSet o => dv.datapointsForReplicaSet o
  | .resourceQuota o => dv.datapointsForResourceQuota o
  | .node o => dv.datapointsForNode o useNodeName
  | .service _ | .other _ => none

/-- The record `HandleAdd` derives for an object, under the node-name flag `useNodeName`. -/
def Derivations.recordOf (dv : Derivations) (useNodeName : Bool) : Object → Option DimProperties
  | .pod o => dv.dimPropsForPod o
  | .deployment o => dv.dimPropsForDeployment o
  | .replicaSet o => dv.dimPropsForReplicaSet o
  | .node o => dv.dimPropsForNode o useNodeName
  | _ => none

namespace DatapointCache

open GoMap

/-- The value of `k` after one more event, given the one before it, when an added object derives
`derive obj`: an add of `k` that derives a value replaces it, and a delete of `k` drops it. -/
def Event.latest {α : Type} (derive : Object → Option α) (k : UID) (latest : Option α) :
    Event → Option α
  | .add obj =>
      match keyForObject obj with
      | .ok key => if key = k then (derive obj).or latest else latest
      | .error _ => latest
  | .delete obj =>
      match keyForObject obj with
      | .ok key => if key = k then none else latest
      | .error _ => latest

/-- The samples a history of events leaves under `k`. -/
def latestSamples (dv : Derivations) (useNodeName : Bool) (events : List Event) (k : UID) :
    Option (List Datapoint) :=
  events.foldl (Event.latest (dv.samplesOf useNodeName) k) none

/-- The record a history of events leaves under `k`. -/
def latestRecord (dv : Derivations) (useNodeName : Bool) (events : List Event) (k : UID) :
    Option DimProperties :=
  events.foldl (Event.latest (dv.recordOf useNodeName) k) none

variable {dv : Derivations} {links : List PropertyLink} {dc dc' : DatapointCache}

/-! ### What one event stores

An add stores the object's derived samples under its key, and its derived record up to the
service property; before that the pod and service handlers change the join index and the service
property of records. A delete erases its key after the same kind of change. So each event is a
store on a cache that is the one before up to the join index and the service properties. -/

/-- The record held for a key is `latest`, up to the `"service"` property. -/
abbrev RecordFollows (latest r : Option DimProperties) : Prop :=
  Option.Rel SameButService latest r

theorem SameButService.refl (d : DimProperties) : SameButService d d :=
  ⟨rfl, rfl, fun _ _ => rfl⟩

theorem RecordFollows.refl (r : Option DimProperties) : RecordFollows r r := by
  cases r
  exacts [.none, .some (SameButService.refl _)]

theorem RecordFollows.trans {a b c : Option DimProperties} (h₁ : RecordFollows a b)
    (h₂ : RecordFollows b c) : RecordFollows a c := by
  cases h₁ with
  | none => exact h₂
  | some h₁ => cases h₂ with | some h₂ => exact .some (h₁.trans h₂)

theorem RecordFollows.isSome_iff {latest r : Option DimProperties} (h : RecordFollows latest r) :
    latest.isSome ↔ r.isSome := by
  cases h <;> rfl

theorem RecordFollows.exists_of_some {latest : Option DimProperties} {d : DimProperties}
    (h : RecordFollows latest (some d)) : ∃ r, latest = some r ∧ SameButService r d := by
  cases h with
  | some h => exact ⟨_, rfl, h⟩

theorem RecordFollows.or {d d' latest r : Option DimProperties} (hd : RecordFollows d d')
    (h : RecordFollows latest r) : RecordFollows (d.or latest) (d'.or r) := by
  cases hd with
  | none => exact h
  | some hd => exact .some hd

/-- Resolving the service property keeps every record following its latest one. -/
theorem ResolvesServiceProps.recordFollows {dc₀ dc₁ : DatapointCache} {podUIDs : List UID}
    (hres : ResolvesServiceProps dc₀ podUIDs dc₁) {k : UID} {latest : Option DimProperties}
    (h : RecordFollows latest (dc₀.dimPropCache.lookup k)) :
    RecordFollows latest (dc₁.dimPropCache.lookup k) := by
  rw [hres.lookup]
  generalize dc₀.dimPropCache.lookup k = r at h ⊢
  split_ifs
  · cases h with
    | none => exact .none
    | some hsame => exact .some (hsame.trans (sameButService_resolveService _ _ _))
  · exact h

/-- `dc₁` is `dc` up to the join index and the service properties of the records. -/
structure SameButJoin (dc dc₁ : DatapointCache) : Prop where
  dpCache : dc₁.dpCache = dc.dpCache
  useNodeName : dc₁.useNodeName = dc.useNodeName
  records : ∀ k, RecordFollows (dc.dimPropCache.lookup k) (dc₁.dimPropCache.lookup k)

theorem sameButJoin_self (dc : DatapointCache) : SameButJoin dc dc :=
  ⟨rfl, rfl, fun _ => .refl _⟩

/-- A change of the join index alone is invisible to `SameButJoin`. -/
theorem SameButJoin.of_setJoin {psc : PodServiceCache} {dc₁ : DatapointCache}
    (h : SameButJoin { dc with podServiceCache := psc } dc₁) : SameButJoin dc dc₁ :=
  ⟨h.dpCache, h.useNodeName, h.records⟩

theorem ResolvesServiceProps.sameButJoin {dc₀ dc₁ : DatapointCache} {podUIDs : List UID}
    (hres : ResolvesServiceProps dc₀ podUIDs dc₁) : SameButJoin dc₀ dc₁ :=
  ⟨hres.dpCache, hres.useNodeName, fun _ => hres.recordFollows (.refl _)⟩

/-- What an add stores: an object of a handled kind has its derived samples stored under its
key, with its derived record up to the service property, on a cache that is the one before up to
the join index and the service properties; any other object changes nothing. -/
theorem handleAdd_stores {obj : Object} {r : DatapointCache × Option UID}
    (hr : dc.handleAdd dv links obj = some r) :
    (∃ u kind dc₁ rec, obj.uidKind = some (u, kind) ∧ SameButJoin dc dc₁ ∧
      RecordFollows (dv.recordOf dc.useNodeName obj) rec ∧
      r.1 = dc₁.storeAdd links u (dv.samplesOf dc.useNodeName obj) rec kind) ∨
    (∃ m, obj = .other m) ∧ r.1 = dc := by
  cases obj
  case pod o =>
    rw [handleAdd_pod] at hr
    obtain ⟨d, hd, rfl⟩ := Option.map_eq_some'.1 hr
    rw [handleAddPod_eq_some hd]
    refine .inl ⟨o.uid, "Pod", _, _, rfl, (sameButJoin_self _).of_setJoin, ?_, rfl⟩
    show RecordFollows (dv.dimPropsForPod o) _
    cases dv.dimPropsForPod o
    exacts [.none, .some (sameButService_podRecord _ _ _)]
  case service o =>
    rw [handleAdd_service] at hr
    obtain ⟨dc₁, hdc₁, rfl⟩ := Option.map_eq_some'.1 hr
    exact .inl ⟨o.uid, "Service", dc₁, none, rfl,
      (ResolvesServiceProps.of_updateServicePropForPods hdc₁).sameButJoin.of_setJoin, .none, rfl⟩
  case other m =>
    cases hr
    exact .inr ⟨⟨m, rfl⟩, rfl⟩
  all_goals
    simp only [DatapointCache.handleAdd, handleAddSwitch, keyForObject, Option.map_some',
      Option.some.injEq] at hr
    subst hr
    exact .inl ⟨_, _, dc, _, rfl, sameButJoin_self dc, .refl _, rfl⟩

/-- What a delete leaves: its key erased from the samples and records of a cache that is the one
before up to the join index and the service properties. -/
theorem deleteByKey_stores {key : UID} (hd : dc.deleteByKey key = some dc') :
    ∃ dc₁, SameButJoin dc dc₁ ∧ dc'.dpCache = dc₁.dpCache.erase key ∧
      dc'.useNodeName = dc₁.useNodeName ∧ dc'.dimPropCache = dc₁.dimPropCache.erase key := by
  obtain ⟨dc₁, hcase, rfl⟩ := deleteByKey_cases hd
  refine ⟨dc₁, ?_, rfl, rfl, rfl⟩
  rcases hcase with ⟨-, rfl⟩ | ⟨-, hdel⟩ | ⟨-, -, rfl⟩
  · exact (sameButJoin_self _).of_setJoin
  · exact (ResolvesServiceProps.of_updateServicePropForPods hdel).sameButJoin.of_setJoin
  · exact sameButJoin_self _

theorem useNodeName_step {e : Event} (hs : dc.step dv links e = some dc') :
    dc'.useNodeName = dc.useNodeName := by
  cases e with
  | add obj =>
      obtain ⟨r, hr, rfl⟩ := Option.map_eq_some'.1 hs
      rcases handleAdd_stores hr with ⟨_, _, dc₁, _, -, hj, -, he⟩ | ⟨-, he⟩ <;> rw [he]
      rw [storeAdd_useNodeName, hj.useNodeName]
  | delete obj =>
      obtain ⟨r, hr, rfl⟩ := Option.map_eq_some'.1 hs
      unfold DatapointCache.handleDelete at hr
      split at hr
      · cases hr
        rfl
      · obtain ⟨dc₁, hd, rfl⟩ := Option.map_eq_some'.1 hr
        obtain ⟨dc₂, hj, -, hn, -⟩ := deleteByKey_stores hd
        exact hn.trans hj.useNodeName

/-! ### The samples -/

theorem lookup_storeAdd_dpCache {key : UID} {dps : Option (List Datapoint)}
    {dimProps : Option DimProperties} {kind : String} (k : UID) :
    (dc.storeAdd links key dps dimProps kind).dpCache.lookup k =
      if key = k then dps.or (dc.dpCache.lookup k) else dc.dpCache.lookup k := by
  rw [storeAdd_dpCache]
  cases dps with
  | none => simp
  | some dps =>
      by_cases h : key = k
      · subst h
        simp [Option.or]
      · simp [h, AList.lookup_insert_ne (Ne.symm h)]

theorem dpCache_deleteByKey {key : UID} (hd : dc.deleteByKey key = some dc') :
    dc'.dpCache = dc.dpCache.erase key := by
  obtain ⟨dc₁, hj, hdp, -, -⟩ := deleteByKey_stores hd
  rw [hdp, hj.dpCache]

/-- One event writes the samples of its own key only, as `Event.latest` says. -/
theorem lookup_dpCache_step {e : Event} (hs : dc.step dv links e = some dc') (k : UID) :
    dc'.dpCache.lookup k =
      e.latest (dv.samplesOf dc.useNodeName) k (dc.dpCache.lookup k) := by
  cases e with
  | add obj =>
      obtain ⟨r, hr, rfl⟩ := Option.map_eq_some'.1 hs
      rcases handleAdd_stores hr with ⟨u, _, dc₁, _, hu, hj, -, he⟩ | ⟨⟨m, rfl⟩, he⟩ <;> rw [he]
      · simp [Event.latest, keyForObject_of_uidKind hu, lookup_storeAdd_dpCache, hj.dpCache]
      · cases m <;> simp [Event.latest, keyForObject, Derivations.samplesOf]
  | delete obj =>
      obtain ⟨r, hr, rfl⟩ := Option.map_eq_some'.1 hs
      cases hobj : keyForObject obj with
      | error msg =>
          simp only [DatapointCache.handleDelete, hobj, Option.some.injEq] at hr
          subst hr
          simp [Event.latest, hobj]
      | ok key =>
          rw [handleDelete_of_key hobj] at hr
          obtain ⟨dc₁, hd, rfl⟩ := Option.map_eq_some'.1 hr
          rw [dpCache_deleteByKey hd]
          by_cases h : key = k
          · subst h
            simp [Event.latest, hobj]
          · simp [Event.latest, hobj, h, AList.lookup_erase_ne (Ne.symm h)]

theorem lookup_dpCache_run {events : List Event} (hr : dc.run dv links events = some dc')
    (k : UID) :
    dc'.dpCache.lookup k =
      events.foldl (Event.latest (dv.samplesOf dc.useNodeName) k) (dc.dpCache.lookup k) := by
  induction events generalizing dc with
  | nil =>
      cases hr
      rfl
  | cons e es ih =>
      simp only [DatapointCache.run, List.foldlM_cons, Option.bind_eq_bind,
        Option.bind_eq_some] at hr
      obtain ⟨dc₁, h₁, h₂⟩ := hr
      rw [ih h₂, useNodeName_step h₁, lookup_dpCache_step h₁, List.foldl_cons]

/-- **The samples follow the latest adds.** Whatever the derivations and the links, in every state
a run reaches from a new cache, each key holds the samples of the latest add of it whose
derivation gave samples, unless a delete of it came after, and `AllDatapoints` reports these
samples for the keys it ranges over. -/
theorem samples_follow_latest_adds (dv : Derivations) (links : List PropertyLink) (b : Bool)
    (events : List Event) {σ : DatapointCache}
    (hσ : (newDatapointCache b).run dv links events = some σ) :
    (∀ k, σ.dpCache.lookup k = latestSamples dv b events k) ∧
      σ.allDatapoints = σ.dpCache.keys.flatMap fun k => (latestSamples dv b events k).getD [] := by
  have hk : ∀ k, σ.dpCache.lookup k = latestSamples dv b events k := lookup_dpCache_run hσ
  refine ⟨hk, ?_⟩
  rw [allDatapoints, allDatapointsBy_eq]
  simp only [hk]

/-- A namespace updated to a version without samples keeps the samples of the first. -/
theorem samples_follow_latest_adds_of_updated_namespace :
    let dv : Derivations := { podRecordsOnly with
      datapointsForNamespace := fun o =>
        if o.name = "old" then some [⟨"kubernetes.namespace_phase", [], 1⟩] else none }
    let ns (name : String) : Resource := ⟨⟨"n", name, "", none, none⟩, []⟩
    let events := [Event.add (.namespace' (ns "old")), .add (.namespace' (ns "new"))]
    ∃ σ, (newDatapointCache false).run dv propertyLinks events = some σ ∧
      (∀ k, σ.dpCache.lookup k = latestSamples dv false events k) ∧
      σ.allDatapoints = σ.dpCache.keys.flatMap fun k => (latestSamples dv false events k).getD [] := by
  intro dv ns events
  have hrun := Option.eq_some_of_isSome
    (o := (newDatapointCache false).run dv propertyLinks events) (by decide)
  exact ⟨_, hrun, samples_follow_latest_adds _ _ _ _ hrun⟩

/-! ### The records -/

theorem lookup_storeAdd_dimPropCache {key : UID} {dps : Option (List Datapoint)}
    {dimProps : Option DimProperties} {kind : String} (k : UID) :
    (dc.storeAdd propertyLinks key dps dimProps kind).dimPropCache.lookup k =
      if key = k then dimProps.or (dc.dimPropCache.lookup k) else dc.dimPropCache.lookup k := by
  rw [storeAdd_dimPropCache_propertyLinks]
  cases dimProps with
  | none => simp
  | some d =>
      by_cases h : key = k
      · subst h
        simp [Option.or]
      · simp [h, AList.lookup_insert_ne (Ne.symm h)]

/-- One event moves the record of each key as `Event.latest` says, up to the service
property. -/
theorem RecordFollows.step {e : Event} (hs : dc.step dv propertyLinks e = some dc') {k : UID}
    {latest : Option DimProperties} (h : RecordFollows latest (dc.dimPropCache.lookup k)) :
    RecordFollows (e.latest (dv.recordOf dc.useNodeName) k latest) (dc'.dimPropCache.lookup k) := by
  cases e with
  | add obj =>
      obtain ⟨r, hr, rfl⟩ := Option.map_eq_some'.1 hs
      rcases handleAdd_stores hr with ⟨u, _, dc₁, _, hu, hj, hrec, he⟩ | ⟨⟨m, rfl⟩, he⟩ <;> rw [he]
      · rw [lookup_storeAdd_dimPropCache]
        simp only [Event.latest, keyForObject_of_uidKind hu]
        split_ifs
        exacts [hrec.or (h.trans (hj.records k)), h.trans (hj.records k)]
      · cases m <;> simpa [Event.latest, keyForObject, Derivations.recordOf] using h
  | delete obj =>
      obtain ⟨r, hr, rfl⟩ := Option.map_eq_some'.1 hs
      cases hobj : keyForObject obj with
      | error msg =>
          simp only [DatapointCache.handleDelete, hobj, Option.some.injEq] at hr
          subst hr
          simpa [Event.latest, hobj] using h
      | ok key =>
          rw [handleDelete_of_key hobj] at hr
          obtain ⟨dc₁, hd, rfl⟩ := Option.map_eq_some'.1 hr
          obtain ⟨dc₂, hj, -, -, hrec⟩ := deleteByKey_stores hd
          simp only [Event.latest, hobj, hrec]
          by_cases hk : key = k
          · subst hk
            simp only [if_true, AList.lookup_erase]
            exact .none
          · simp only [hk, if_false, AList.lookup_erase_ne (Ne.symm hk)]
            exact h.trans (hj.records k)

theorem RecordFollows.run {events : List Event} (hr : dc.run dv propertyLinks events = some dc')
    {k : UID} {latest : Option DimProperties} (h : RecordFollows latest (dc.dimPropCache.lookup k)) :
    RecordFollows (events.foldl (Event.latest (dv.recordOf dc.useNodeName) k) latest)
      (dc'.dimPropCache.lookup k) := by
  induction events generalizing dc latest with
  | nil =>
      cases hr
      exact h
  | cons e es ih =>
      simp only [DatapointCache.run, List.foldlM_cons, Option.bind_eq_bind,
        Option.bind_eq_some] at hr
      obtain ⟨dc₁, h₁, h₂⟩ := hr
      have h' := ih h₂ (RecordFollows.step h₁ h)
      rwa [useNodeName_step h₁] at h'

/-- **The records follow the latest adds.** With the links of the source, whatever the
derivations, in every state a run reaches from a new cache, each key holds the record of the
latest add of it whose derivation gave one, but for the `"service"` property, and no record when
no add of it gave one since its last delete: an update whose derivation gives no record keeps the
previous version's. -/
theorem records_follow_latest_adds (dv : Derivations) (b : Bool) (events : List Event)
    {σ : DatapointCache} (hσ : (newDatapointCache b).run dv propertyLinks events = some σ)
    (k : UID) :
    Option.Rel SameButService (latestRecord dv b events k) (σ.dimPropCache.lookup k) :=
  RecordFollows.run hσ .none

theorem records_follow_latest_adds_of_relabelled_pod :
    let pod (app : String) : Resource :=
      ⟨⟨"p", "web-1", "ns", some ((∅ : Labels).insert "app" app), none⟩, []⟩
    let events := [Event.add (.pod (pod "foo")), .add (.pod (pod "bar"))]
    ∃ σ, (newDatapointCache false).run podRecordsOnly propertyLinks events = some σ ∧
      Option.Rel SameButService (latestRecord podRecordsOnly false events "p")
        (σ.dimPropCache.lookup "p") := by
  intro pod events
  have hrun := Option.eq_some_of_isSome
    (o := (newDatapointCache false).run podRecordsOnly propertyLinks events) (by decide)
  exact ⟨_, hrun, records_follow_latest_adds _ _ _ hrun "p"⟩


/-! ### What the monitor reports -/

/-- **The reported records follow the latest adds.** With the links of the source, whatever the
derivations, in every state a run reaches from a new cache, the record map holds the keys whose
latest add since their last delete gave a record, and `AllDimProperties` reports, key by key in
the order of that map, a copy with the dimension and tags of that latest record and with its
properties but for `"service"`. -/
theorem reported_records_follow_latest_adds (dv : Derivations) (b : Bool) (events : List Event)
    {σ : DatapointCache} (hσ : (newDatapointCache b).run dv propertyLinks events = some σ) :
    (∀ k, k ∈ σ.dimPropCache.keys ↔ (latestRecord dv b events k).isSome) ∧
      List.Forall₂ (fun k d => ∃ r, latestRecord dv b events k = some r ∧
          d.toDimension = r.toDimension ∧ (∀ t, d.tags.lookup t = r.tags.lookup t) ∧
          ∀ name, name ≠ "service" → d.properties.lookup name = r.properties.lookup name)
        σ.dimPropCache.keys σ.allDimProperties := by
  have hk : ∀ k, RecordFollows (latestRecord dv b events k) (σ.dimPropCache.lookup k) :=
    fun _ => RecordFollows.run hσ .none
  refine ⟨fun k => ?_, ?_⟩
  · rw [← AList.mem_keys, ← AList.lookup_isSome]
    exact (hk k).isSome_iff.symm
  · rw [allDimProperties_eq, AList.keys, List.keys, List.forall₂_map_left_iff,
      List.forall₂_map_right_iff, List.forall₂_same]
    intro e he
    have hl := hk e.1
    rw [AList.mem_lookup_iff.2 he] at hl
    obtain ⟨r, hr, hsame⟩ := hl.exists_of_some
    refine ⟨r, hr, hsame.1.symm, fun t => ?_, fun name hname => ?_⟩
    · rw [DimProperties.lookup_copy_tags, hsame.2.1]
    · rw [DimProperties.lookup_copy_properties, hsame.2.2 name hname]

theorem reported_records_follow_latest_adds_of_relabelled_pod :
    let pod (app : String) : Resource :=
      ⟨⟨"p", "web-1", "ns", some ((∅ : Labels).insert "app" app), none⟩, []⟩
    let events := [Event.add (.pod (pod "foo")), .add (.pod (pod "bar"))]
    ∃ σ, (newDatapointCache false).run podRecordsOnly propertyLinks events = some σ ∧
      (∀ k, k ∈ σ.dimPropCache.keys ↔ (latestRecord podRecordsOnly false events k).isSome) ∧
      List.Forall₂ (fun k d => ∃ r, latestRecord podRecordsOnly false events k = some r ∧
          d.toDimension = r.toDimension ∧ (∀ t, d.tags.lookup t = r.tags.lookup t) ∧
          ∀ name, name ≠ "service" → d.properties.lookup name = r.properties.lookup name)
        σ.dimPropCache.keys σ.allDimProperties := by
  intro pod events
  have hrun := Option.eq_some_of_isSome
    (o := (newDatapointCache false).run podRecordsOnly propertyLinks events) (by decide)
  exact ⟨_, hrun, reported_records_follow_latest_adds _ _ _ hrun⟩

end DatapointCache

end ClusterCache
