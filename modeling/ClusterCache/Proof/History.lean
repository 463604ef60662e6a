import ClusterCache.Proof.ServiceAgreement
import ClusterCache.Proof.JoinExactness
import ClusterCache.Proof.ServiceName
import ClusterCache.Proof.Frame
import ClusterCache.Proof.JoinHistory

/-!
# The kinds and the join index follow the history

The datapoint cache reads its derivations, its links and its node-name flag only to make
datapoints and records: the kinds it caches and its join index depend on the events alone. An
added object of a handled type records its kind, and a pod or a service is set in the join
index; a deleted object loses its kind, and leaves the join index as the kind it had
(`history`). So, in every state a run reaches, the join index of the datapoint cache is the one
the calls of the history build from `NewPodServiceCache()`, and has every property those states
have. In particular a pod and a service whose stored labels and selector match are joined, so a
cached pod that a cached service selects carries the name of one of its services; and the
`"service"` property of a pod is the least name of the services its pair histories join it to,
which, while no relabelling changes a match, are the services whose latest versions match its
latest version.
-/

namespace ClusterCache

namespace DatapointCache

open GoMap PodServiceCache

variable {dv : Derivations} {links : List PropertyLink} {dc dc' : DatapointCache}
  {acc : GoMap UID String × List Call}

/-! ### The history -/

/-- The calls a delete of `key` makes on the join index, given the kinds cached before it. -/
def deleteCalls (kinds : GoMap UID String) (key : UID) : List Call :=
  if kinds.lookup key = some "Pod" then [.deletePodFromCache key]
  else if kinds.lookup key = some "Service" then [.deleteServiceFromCache key]
  else []

/-- The kinds cached after an event. -/
def Event.kinds (kinds : GoMap UID String) : Event → GoMap UID String
  | .add obj =>
      match obj.uidKind with
      | some (u, k) => kinds.insert u k
      | none => kinds
  | .delete obj =>
      match keyForObject obj with
      | .ok key => kinds.erase key
      | .error _ => kinds

/-- The calls an event makes on the join index, given the kinds cached before it. -/
def Event.joinCalls (kinds : GoMap UID String) : Event → List Call
  | .add (.pod o) => [.setPod o]
  | .add (.service o) => [.setService o]
  | .add _ => []
  | .delete obj =>
      match keyForObject obj with
      | .ok key => deleteCalls kinds key
      | .error _ => []

/-- One event of a history: the kinds it leaves, after the calls made so far on the join
index. -/
def historyStep (acc : GoMap UID String × List Call) (e : Event) :
    GoMap UID String × List Call :=
  (e.kinds acc.1, acc.2 ++ e.joinCalls acc.1)

/-- The kinds a history of events leaves cached, and the calls it makes on the join index. -/
def history (events : List Event) : GoMap UID String × List Call :=
  events.foldl historyStep (∅, [])

/-- The cache has the kinds of the history, and the join index its calls build. -/
def FollowsHistory (dc : DatapointCache) (acc : GoMap UID String × List Call) : Prop :=
  dc.uidKindCache = acc.1 ∧ dc.podServiceCache = runCalls acc.2

theorem runCalls_append (calls calls' : List Call) :
    runCalls (calls ++ calls') = calls'.foldl PodServiceCache.apply (runCalls calls) :=
  List.foldl_append _ _ _ _

theorem followsHistory_newDatapointCache (b : Bool) :
    (newDatapointCache b).FollowsHistory (∅, []) :=
  ⟨rfl, rfl⟩

/-! ### One event -/

theorem FollowsHistory.handleAdd (hf : dc.FollowsHistory acc) {obj : Object}
    {r : DatapointCache × Option UID} (hr : dc.handleAdd dv links obj = some r) :
    r.1.FollowsHistory (historyStep acc (.add obj)) := by
  obtain ⟨hk, hj⟩ := hf
  cases obj
  case pod o =>
    rw [handleAdd_pod] at hr
    obtain ⟨d, hd, rfl⟩ := Option.map_eq_some'.1 hr
    obtain rfl := handleAddPod_eq_some hd
    refine ⟨?_, ?_⟩ <;>
      simp [historyStep, Event.kinds, Event.joinCalls, Object.uidKind, storeAdd_uidKindCache,
        runCalls_append, PodServiceCache.apply, hk, hj]
  case service o =>
    rw [handleAdd_service] at hr
    obtain ⟨dc₁, hdc₁, rfl⟩ := Option.map_eq_some'.1 hr
    have hres := ResolvesServiceProps.of_updateServicePropForPods hdc₁
    refine ⟨?_, ?_⟩ <;>
      simp [historyStep, Event.kinds, Event.joinCalls, Object.uidKind, storeAdd_uidKindCache,
        runCalls_append, PodServiceCache.apply, hres.uidKindCache, hres.podServiceCache, hk, hj]
  case other m =>
    cases hr
    exact ⟨hk, by simp [historyStep, Event.joinCalls, hj]⟩
  all_goals
    simp only [DatapointCache.handleAdd, handleAddSwitch, keyForObject, Option.map_some',
      Option.some.injEq] at hr
    subst hr
    refine ⟨?_, ?_⟩ <;>
      simp [historyStep, Event.kinds, Event.joinCalls, Object.uidKind, storeAdd_uidKindCache, hk,
        hj]

theorem FollowsHistory.deleteByKey (hf : dc.FollowsHistory acc) {key : UID}
    (hd : dc.deleteByKey key = some dc') :
    dc'.FollowsHistory (acc.1.erase key, acc.2 ++ deleteCalls acc.1 key) := by
  obtain ⟨hk, hj⟩ := hf
  obtain ⟨dc₁, hcase, rfl⟩ := deleteByKey_cases hd
  rw [hk] at hcase
  rcases hcase with ⟨hpod, rfl⟩ | ⟨hsvc, hdel⟩ | ⟨hpod, hsvc, rfl⟩
  · refine ⟨by simp [handleDeletePod, hk], ?_⟩
    simp [deleteCalls, hpod, handleDeletePod, runCalls_append, PodServiceCache.apply, hj]
  · have hres := ResolvesServiceProps.of_updateServicePropForPods hdel
    refine ⟨by simp [hres.uidKindCache, hk], ?_⟩
    simp [deleteCalls, hsvc, hres.podServiceCache, runCalls_append, PodServiceCache.apply, hj]
  · exact ⟨by simp [hk], by simp [deleteCalls, hpod, hsvc, hj]⟩

theorem FollowsHistory.step (hf : dc.FollowsHistory acc) {e : Event}
    (hs : dc.step dv links e = some dc') : dc'.FollowsHistory (historyStep acc e) := by
  cases e with
  | add obj =>
      obtain ⟨r, hr, rfl⟩ := Option.map_eq_some'.1 hs
      exact hf.handleAdd hr
  | delete obj =>
      obtain ⟨r, hr, rfl⟩ := Option.map_eq_some'.1 hs
      unfold DatapointCache.handleDelete at hr
      split at hr <;> rename_i hkey
      · cases hr
        exact ⟨by simp [historyStep, Event.kinds, hkey, hf.1],
          by simp [historyStep, Event.joinCalls, hkey, hf.2]⟩
      · obtain ⟨dc₁, hdc₁, rfl⟩ := Option.map_eq_some'.1 hr
        simpa [historyStep, Event.kinds, Event.joinCalls, hkey] using hf.deleteByKey hdc₁

theorem FollowsHistory.run (hf : dc.FollowsHistory acc) {events : List Event}
    (hr : dc.run dv links events = some dc') : dc'.FollowsHistory (events.foldl historyStep acc) := by
  induction events generalizing dc acc with
  | nil =>
      cases hr
      exact hf
  | cons e es ih =>
      simp only [DatapointCache.run, List.foldlM_cons, Option.bind_eq_bind,
        Option.bind_eq_some] at hr
      obtain ⟨dc₁, h₁, h₂⟩ := hr
      exact ih (hf.step h₁) h₂

/-- **The kinds and the join index follow the history.** Whatever the derivations, the links and
the node-name flag, in every state a run reaches from a new cache, the cached kinds are those
the history of events leaves, and the join index is the one the history's calls build from
`NewPodServiceCache()`. -/
theorem kinds_and_join_index_follow_history (dv : Derivations) (links : List PropertyLink)
    (b : Bool) (events : List Event) {σ : DatapointCache}
    (hσ : (newDatapointCache b).run dv links events = some σ) :
    σ.uidKindCache = (history events).1 ∧ σ.podServiceCache = runCalls (history events).2 :=
  (followsHistory_newDatapointCache b).run hσ

theorem kinds_and_join_index_follow_history_of_deleted_pod :
    let svc : Service := ⟨⟨"s", "web", "ns", none, none⟩, some ((∅ : Labels).insert "app" "web")⟩
    let pod : Resource := ⟨⟨"p", "web-1", "ns", some ((∅ : Labels).insert "app" "web"), none⟩, []⟩
    let events := [Event.add (.pod pod), .add (.service svc), .delete (.pod pod)]
    ∃ σ, (newDatapointCache false).run podRecordsOnly propertyLinks events = some σ ∧
      σ.uidKindCache = (history events).1 ∧ σ.podServiceCache = runCalls (history events).2 := by
  intro svc pod events
  have hrun := Option.eq_some_of_isSome
    (o := (newDatapointCache false).run podRecordsOnly propertyLinks events) (by decide)
  exact ⟨_, hrun, kinds_and_join_index_follow_history _ _ _ _ hrun⟩

/-! ### What the join index of every reachable state has -/

/-- The lookup gives no name exactly when it errs, and its one error is that no service matched
the pod. -/
theorem toOption_getServiceNameForPodUID_eq_none {psc : PodServiceCache} {p : UID} :
    (psc.getServiceNameForPodUID p).toOption = none ↔
      psc.getServiceNameForPodUID p = .error "no service matched pod" := by
  simp only [getServiceNameForPodUID]
  split_ifs <;> simp [Except.toOption]

theorem toOption_eq_some_iff {x : Except String String} {n : String} :
    x.toOption = some n ↔ x = .ok n := by
  cases x <;> simp [Except.toOption]

/-- A pod joined to a service resolves to the name of one of its services. -/
theorem exists_getServiceNameForPodUID_eq_ok {psc : PodServiceCache} {p s : UID}
    (hps : psc.podSvcUIDCache.Has p s) :
    ∃ s', psc.podSvcUIDCache.Has p s' ∧
      psc.getServiceNameForPodUID p = .ok (psc.svcUIDNameCache.getD s' "") := by
  cases hn : psc.getServiceNameForPodUID p with
  | error e =>
      have he := toOption_getServiceNameForPodUID_eq_none.1 (by rw [hn]; rfl)
      exact absurd hps (getServiceNameForPodUID_eq_error.1 he s)
  | ok n =>
      rw [getServiceNameForPodUID_eq_ok] at hn
      obtain ⟨⟨s', hs', rfl⟩, -⟩ := hn
      exact ⟨s', hs', rfl⟩

/-- **A selected pod carries a service.** When the pod derivation gives every pod a record, in
every state a run of events with one kind per UID reaches from a new cache, a cached pod whose
stored labels a cached service's stored selector matches, in the same namespace, has a record,
and the record's `"service"` property is the name of one of the services the pod is joined
to. -/
theorem selected_pod_carries_service_property (dv : Derivations) (b : Bool)
    (events : List Event) (hkinds : OneKindPerUID events)
    (hdv : ∀ pod, (dv.dimPropsForPod pod).isSome) :
    ∃ σ, (newDatapointCache b).run dv propertyLinks events = some σ ∧
      ∀ p s, σ.podServiceCache.StoredMatch p s →
        ∃ d s', σ.dimPropCache.lookup p = some d ∧ σ.podServiceCache.podSvcUIDCache.Has p s' ∧
          d.properties.lookup "service" = some (σ.podServiceCache.svcUIDNameCache.getD s' "") := by
  obtain ⟨σ, _, hr, h, hrec, hag⟩ := exists_run_servicePropsAgree b hkinds hdv
  have hcomplete : σ.podServiceCache.Complete := by
    rw [((followsHistory_newDatapointCache b).run hr).2]
    exact complete_newPodServiceCache.foldl_apply _
  refine ⟨σ, hr, fun p s hm => ?_⟩
  have hp := hm.pod_mem
  obtain ⟨d, hd⟩ := Option.isSome_iff_exists.1 (AList.lookup_isSome.2 (hrec p hp))
  obtain ⟨s', hs', hn⟩ := exists_getServiceNameForPodUID_eq_ok (hcomplete p s hm)
  exact ⟨d, s', hd, hs', (hag p d (h.pod_kind p hp) hd).lookup_eq_of_ok hn⟩

theorem selected_pod_carries_service_property_of_service_added_later :
    let svc : Service := ⟨⟨"s", "web", "ns", none, none⟩, some ((∅ : Labels).insert "app" "web")⟩
    let pod : Resource := ⟨⟨"p", "web-1", "ns", some ((∅ : Labels).insert "app" "web"), none⟩, []⟩
    let events := [Event.add (.pod pod), .add (.service svc)]
    OneKindPerUID events ∧ (∀ pod, (podRecordsOnly.dimPropsForPod pod).isSome) ∧
      ∃ σ, (newDatapointCache false).run podRecordsOnly propertyLinks events = some σ ∧
        ∀ p s, σ.podServiceCache.StoredMatch p s →
          ∃ d s', σ.dimPropCache.lookup p = some d ∧ σ.podServiceCache.podSvcUIDCache.Has p s' ∧
            d.properties.lookup "service" =
              some (σ.podServiceCache.svcUIDNameCache.getD s' "") := by
  intro svc pod events
  have hk : OneKindPerUID events := ⟨fun u => if u = "s" then "Service" else "Pod", by
    rintro obj hobj u k hu
    simp only [events, List.mem_cons, Event.add.injEq, List.not_mem_nil, or_false] at hobj
    rcases hobj with rfl | rfl <;> cases hu <;> rfl⟩
  have hdv : ∀ pod, (podRecordsOnly.dimPropsForPod pod).isSome := fun _ => rfl
  exact ⟨hk, hdv, selected_pod_carries_service_property _ _ _ hk hdv⟩

/-- In the state a run reaches, the service property of every cached pod is the name the join
index of the history resolves for it, when the derived records carry none of their own. -/
theorem exists_run_lookup_service (b : Bool) {events : List Event}
    (hkinds : OneKindPerUID events) (hdv : ∀ pod, (dv.dimPropsForPod pod).isSome)
    (hbare : dv.BareRecords) :
    ∃ σ, (newDatapointCache b).run dv propertyLinks events = some σ ∧
      ∀ p d, σ.uidKindCache.lookup p = some "Pod" → σ.dimPropCache.lookup p = some d →
        d.properties.lookup "service" =
          ((runCalls (history events).2).getServiceNameForPodUID p).toOption := by
  obtain ⟨σ, _, hr, -, -, hag⟩ := exists_run_servicePropsAgree b hkinds hdv
  exact ⟨σ, hr, fun p d hkp hdp =>
    ((followsHistory_newDatapointCache b).run hr).2 ▸ (hag p d hkp hdp).lookup_eq hbare⟩

/-- **The service property follows the pairs' histories.** When the pod derivation gives every
pod a record without a `"service"` property of its own, in every state a run of events with one
kind per UID reaches from a new cache, the record of a cached pod has a `"service"` property
exactly when the history of some pair of the pod and a service joins them, and the property is
then the byte-wise least of the latest names of those services. -/
theorem service_property_follows_pair_histories (dv : Derivations) (b : Bool)
    (events : List Event) (hkinds : OneKindPerUID events)
    (hdv : ∀ pod, (dv.dimPropsForPod pod).isSome) (hbare : dv.BareRecords) :
    ∃ σ, (newDatapointCache b).run dv propertyLinks events = some σ ∧
      ∀ p d, σ.uidKindCache.lookup p = some "Pod" → σ.dimPropCache.lookup p = some d →
        (d.properties.lookup "service" = none ↔
          ∀ s, (pairHistory (history events).2 p s).joined = false) ∧
        ∀ n, d.properties.lookup "service" = some n ↔
          (∃ s, (pairHistory (history events).2 p s).joined = true ∧
            ((pairHistory (history events).2 p s).svc.map (·.name)).getD "" = n) ∧
          ∀ s, (pairHistory (history events).2 p s).joined = true →
            ¬goLess (((pairHistory (history events).2 p s).svc.map (·.name)).getD "") n := by
  obtain ⟨σ, hr, hlookup⟩ := exists_run_lookup_service b hkinds hdv hbare
  refine ⟨σ, hr, fun p d hkp hdp => ?_⟩
  rw [hlookup p d hkp hdp, toOption_getServiceNameForPodUID_eq_none,
    getServiceNameForPodUID_runCalls_eq_error]
  exact ⟨.rfl, fun n => by rw [toOption_eq_some_iff, getServiceNameForPodUID_runCalls_eq_ok]⟩

theorem service_property_follows_pair_histories_of_relabelled_pod :
    let svc : Service := ⟨⟨"s", "web", "ns", none, none⟩, some ((∅ : Labels).insert "app" "foo")⟩
    let pod (app : String) : Resource :=
      ⟨⟨"p", "web-1", "ns", some ((∅ : Labels).insert "app" app), none⟩, []⟩
    let events := [Event.add (.service svc), .add (.pod (pod "foo")), .add (.pod (pod "bar"))]
    OneKindPerUID events ∧ (∀ pod, (podRecordsOnly.dimPropsForPod pod).isSome) ∧
      podRecordsOnly.BareRecords ∧
      ∃ σ, (newDatapointCache false).run podRecordsOnly propertyLinks events = some σ ∧
        ∀ p d, σ.uidKindCache.lookup p = some "Pod" → σ.dimPropCache.lookup p = some d →
          (d.properties.lookup "service" = none ↔
            ∀ s, (pairHistory (history events).2 p s).joined = false) ∧
          ∀ n, d.properties.lookup "service" = some n ↔
            (∃ s, (pairHistory (history events).2 p s).joined = true ∧
              ((pairHistory (history events).2 p s).svc.map (·.name)).getD "" = n) ∧
            ∀ s, (pairHistory (history events).2 p s).joined = true →
              ¬goLess (((pairHistory (history events).2 p s).svc.map (·.name)).getD "") n := by
  intro svc pod events
  have hk : OneKindPerUID events := ⟨fun u => if u = "s" then "Service" else "Pod", by
    rintro obj hobj u k hu
    simp only [events, List.mem_cons, Event.add.injEq, List.not_mem_nil, or_false] at hobj
    rcases hobj with rfl | rfl | rfl <;> cases hu <;> rfl⟩
  have hdv : ∀ pod, (podRecordsOnly.dimPropsForPod pod).isSome := fun _ => rfl
  have hbare : podRecordsOnly.BareRecords := fun _ _ h => by cases h; rfl
  exact ⟨hk, hdv, hbare, service_property_follows_pair_histories _ _ _ hk hdv hbare⟩

/-- **The service property is exact while matches are stable.** When the pod derivation gives
every pod a record without a `"service"` property of its own, in every state a run of events with
one kind per UID reaches from a new cache, a cached pod whose versions match the versions of each
service alike has a `"service"` property exactly when the latest version of some service with a
selector matches its latest version, and the property is then the byte-wise least of the names
of those services. -/
theorem service_property_exact_while_matches_stable (dv : Derivations) (b : Bool)
    (events : List Event) (hkinds : OneKindPerUID events)
    (hdv : ∀ pod, (dv.dimPropsForPod pod).isSome) (hbare : dv.BareRecords) :
    ∃ σ, (newDatapointCache b).run dv propertyLinks events = some σ ∧
      ∀ p d, σ.uidKindCache.lookup p = some "Pod" → σ.dimPropCache.lookup p = some d →
        (∀ s, MatchStable (history events).2 p s) →
        (d.properties.lookup "service" = none ↔
          ∀ s, (pairHistory (history events).2 p s).matches = false) ∧
        ∀ n, d.properties.lookup "service" = some n ↔
          (∃ s, (pairHistory (history events).2 p s).matches = true ∧
            ((pairHistory (history events).2 p s).svc.map (·.name)).getD "" = n) ∧
          ∀ s, (pairHistory (history events).2 p s).matches = true →
            ¬goLess (((pairHistory (history events).2 p s).svc.map (·.name)).getD "") n := by
  obtain ⟨σ, hr, hlookup⟩ := exists_run_lookup_service b hkinds hdv hbare
  refine ⟨σ, hr, fun p d hkp hdp hstable => ?_⟩
  simp only [← joined_eq_matches_of_matchStable (hstable _)]
  rw [hlookup p d hkp hdp, toOption_getServiceNameForPodUID_eq_none,
    getServiceNameForPodUID_runCalls_eq_error]
  exact ⟨.rfl, fun n => by rw [toOption_eq_some_iff, getServiceNameForPodUID_runCalls_eq_ok]⟩

theorem service_property_exact_while_matches_stable_of_relabelled_pod :
    let svc : Service := ⟨⟨"s", "web", "ns", none, none⟩, some ((∅ : Labels).insert "app" "web")⟩
    let pod (tier : String) : Resource :=
      ⟨⟨"p", "web-1", "ns", some (((∅ : Labels).insert "app" "web").insert "tier" tier), none⟩, []⟩
    let events := [Event.add (.pod (pod "a")), .add (.service svc), .add (.pod (pod "b"))]
    OneKindPerUID events ∧ (∀ pod, (podRecordsOnly.dimPropsForPod pod).isSome) ∧
      podRecordsOnly.BareRecords ∧
      ∃ σ, (newDatapointCache false).run podRecordsOnly propertyLinks events = some σ ∧
        ∀ p d, σ.uidKindCache.lookup p = some "Pod" → σ.dimPropCache.lookup p = some d →
          (∀ s, MatchStable (history events).2 p s) →
          (d.properties.lookup "service" = none ↔
            ∀ s, (pairHistory (history events).2 p s).matches = false) ∧
          ∀ n, d.properties.lookup "service" = some n ↔
            (∃ s, (pairHistory (history events).2 p s).matches = true ∧
              ((pairHistory (history events).2 p s).svc.map (·.name)).getD "" = n) ∧
            ∀ s, (pairHistory (history events).2 p s).matches = true →
              ¬goLess (((pairHistory (history events).2 p s).svc.map (·.name)).getD "") n := by
  intro svc pod events
  have hk : OneKindPerUID events := ⟨fun u => if u = "s" then "Service" else "Pod", by
    rintro obj hobj u k hu
    simp only [events, List.mem_cons, Event.add.injEq, List.not_mem_nil, or_false] at hobj
    rcases hobj with rfl | rfl | rfl <;> cases hu <;> rfl⟩
  have hdv : ∀ pod, (podRecordsOnly.dimPropsForPod pod).isSome := fun _ => rfl
  have hbare : podRecordsOnly.BareRecords := fun _ _ h => by cases h; rfl
  exact ⟨hk, hdv, hbare, service_property_exact_while_matches_stable _ _ _ hk hdv hbare⟩

/-! ### The records of the pods -/

theorem latestPod_joinCalls_add (kinds : GoMap UID String) (calls : List Call) {obj : Object}
    {p : UID} (hobj : ∀ o, obj = .pod o → o.uid ≠ p) :
    latestPod (calls ++ Event.joinCalls kinds (.add obj)) p = latestPod calls p := by
  cases obj
  case pod o => simp [Event.joinCalls, latestPod_append_singleton, hobj o rfl]
  all_goals simp [Event.joinCalls, latestPod_append_singleton]

theorem latestPod_deleteCalls (kinds : GoMap UID String) (calls : List Call) (key p : UID) :
    latestPod (calls ++ deleteCalls kinds key) p =
      if kinds.lookup key = some "Pod" ∧ key = p then none else latestPod calls p := by
  unfold deleteCalls
  split_ifs <;> simp_all [latestPod_append_singleton]

/-- The key `p` follows the latest pod the calls set under it: while one is live, `p` is cached as
a pod, with the pod derivation's record of that pod up to the `"service"` property; otherwise `p`
is not cached as a pod. -/
def PodFollows (dv : Derivations) (calls : List Call) (dc : DatapointCache) (p : UID) : Prop :=
  match latestPod calls p with
  | some pod => dc.uidKindCache.lookup p = some "Pod" ∧
      ∃ d₀ d, dv.dimPropsForPod pod = some d₀ ∧ dc.dimPropCache.lookup p = some d ∧
        SameButService d₀ d
  | none => dc.uidKindCache.lookup p ≠ some "Pod"

variable {calls calls' : List Call} {k p : UID}

theorem podFollows_newDatapointCache (b : Bool) (p : UID) :
    PodFollows dv [] (newDatapointCache b) p := by
  simp [PodFollows, latestPod, newDatapointCache]

theorem PodFollows.of_calls (h : PodFollows dv calls dc p)
    (hcalls : latestPod calls' p = latestPod calls p) : PodFollows dv calls' dc p := by
  unfold PodFollows at h ⊢
  rwa [hcalls]

/-- A key that an event writes only up to the service property, with the same latest pod,
follows it as before. -/
theorem PodFollows.of_kept (h : PodFollows dv calls dc p)
    (hcalls : latestPod calls' p = latestPod calls p) (hk : KeptExceptService k dc dc' p) :
    PodFollows dv calls' dc' p := by
  obtain ⟨hkind, -, hrec⟩ := hk
  unfold PodFollows at h ⊢
  rw [hcalls, hkind]
  generalize latestPod calls p = l at h ⊢
  cases l with
  | none => exact h
  | some pod =>
      obtain ⟨hpod, d₀, d, hd₀, hd, hsame⟩ := h
      refine ⟨hpod, d₀, ?_⟩
      rcases hrec with hrec | ⟨-, d₁, d', hd₁, hd', hsame'⟩
      · exact ⟨d, hd₀, hrec ▸ hd, hsame⟩
      · cases hd.symm.trans hd₁
        exact ⟨d', hd₀, hd', hsame.trans hsame'⟩

/-- A key cached as no pod, before and after, follows the same latest pod as before. -/
theorem PodFollows.of_not_pod (h : PodFollows dv calls dc p)
    (hcalls : latestPod calls' p = latestPod calls p)
    (hk : dc.uidKindCache.lookup p ≠ some "Pod") (hk' : dc'.uidKindCache.lookup p ≠ some "Pod") :
    PodFollows dv calls' dc' p := by
  unfold PodFollows at h ⊢
  rw [hcalls]
  generalize latestPod calls p = l at h ⊢
  cases l with
  | none => exact hk'
  | some pod => exact absurd h.1 hk

variable {kindOf : UID → String}

/-- Adding an object keeps its own key following the latest pod. -/
theorem PodFollows.handleAdd_self (h : dc.Inv kindOf) (hp : PodFollows dv acc.2 dc k)
    (hdv : ∀ pod, (dv.dimPropsForPod pod).isSome) {obj : Object} (hobj : keyForObject obj = .ok k)
    (he : (Event.add obj).Agrees kindOf) {r : DatapointCache × Option UID}
    (hr : dc.handleAdd dv propertyLinks obj = some r) :
    PodFollows dv (historyStep acc (.add obj)).2 r.1 k := by
  have hcalls : (∀ o, obj ≠ .pod o) →
      latestPod (historyStep acc (.add obj)).2 k = latestPod acc.2 k :=
    fun hnp => latestPod_joinCalls_add _ _ fun o ho => absurd ho (hnp o)
  have hkind : ∀ kind, obj.uidKind = some (k, kind) → kind ≠ "Pod" →
      dc.uidKindCache.lookup k ≠ some "Pod" :=
    fun kind hu hne hk => hne ((he _ _ hu).symm.trans (h.kinds _ _ hk))
  cases obj
  case pod o =>
    cases hobj
    rw [handleAdd_pod] at hr
    obtain ⟨d, hd, rfl⟩ := Option.map_eq_some'.1 hr
    obtain rfl := handleAddPod_eq_some hd
    obtain ⟨d₀, hd₀⟩ := Option.isSome_iff_exists.1 (hdv o)
    simp only [PodFollows, historyStep, Event.joinCalls, latestPod_append_singleton, if_pos rfl]
    refine ⟨by rw [storeAdd_uidKindCache (by decide), AList.lookup_insert], d₀,
      podRecord (dc.podServiceCache.setPod o) o d₀, hd₀, ?_, sameButService_podRecord _ _ _⟩
    rw [storeAdd_dimPropCache_propertyLinks, hd₀]
    exact AList.lookup_insert _
  case service o =>
    cases hobj
    rw [handleAdd_service] at hr
    obtain ⟨dc₁, -, rfl⟩ := Option.map_eq_some'.1 hr
    refine hp.of_not_pod (hcalls nofun) (hkind _ rfl (by decide)) ?_
    rw [storeAdd_none_none (by decide), AList.lookup_insert]
    decide
  case other m =>
    cases hr
    exact hp.of_calls (hcalls nofun)
  all_goals
    cases hobj
    simp only [DatapointCache.handleAdd, handleAddSwitch, keyForObject, Option.map_some',
      Option.some.injEq] at hr
    subst hr
    refine hp.of_not_pod (hcalls nofun) (hkind _ rfl (by decide)) ?_
    rw [storeAdd_uidKindCache (by decide), AList.lookup_insert]
    decide

/-- Deleting a key leaves it cached as no pod, and following none when it was cached as one. -/
theorem PodFollows.deleteByKey_self (hf : dc.FollowsHistory acc) (hp : PodFollows dv acc.2 dc k)
    (hd : dc.deleteByKey k = some dc') : PodFollows dv (acc.2 ++ deleteCalls acc.1 k) dc' k := by
  obtain ⟨dc₁, -, rfl⟩ := deleteByKey_cases hd
  by_cases hpod : acc.1.lookup k = some "Pod"
  · simp [PodFollows, latestPod_deleteCalls, hpod]
  · exact hp.of_not_pod (by simp [latestPod_deleteCalls, hpod]) (hf.1 ▸ hpod) (by simp)

theorem PodFollows.step (h : dc.Inv kindOf) (hf : dc.FollowsHistory acc)
    (hp : ∀ p, PodFollows dv acc.2 dc p) (hdv : ∀ pod, (dv.dimPropsForPod pod).isSome)
    {e : Event} (he : e.Agrees kindOf) (hs : dc.step dv propertyLinks e = some dc') (p : UID) :
    PodFollows dv (historyStep acc e).2 dc' p := by
  cases e with
  | add obj =>
      obtain ⟨r, hr, rfl⟩ := Option.map_eq_some'.1 hs
      cases hobj : keyForObject obj with
      | error msg =>
          obtain ⟨m, rfl⟩ : ∃ m, obj = .other m := by
            cases obj <;> first | exact ⟨_, rfl⟩ | cases hobj
          cases hr
          exact (hp p).of_calls (latestPod_joinCalls_add _ _ nofun)
      | ok k =>
          by_cases hpk : p = k
          · subst hpk
            exact (hp p).handleAdd_self h hdv hobj he hr
          · refine (hp p).of_kept (latestPod_joinCalls_add _ _ ?_)
              (keptExceptService_handleAdd h.join hobj hr hpk)
            rintro o rfl rfl
            cases hobj
            exact hpk rfl
  | delete obj =>
      obtain ⟨r, hr, rfl⟩ := Option.map_eq_some'.1 hs
      cases hobj : keyForObject obj with
      | error msg =>
          simp only [DatapointCache.handleDelete, hobj, Option.some.injEq] at hr
          subst hr
          simpa [historyStep, Event.joinCalls, hobj] using hp p
      | ok k =>
          have hcalls : (historyStep acc (.delete obj)).2 = acc.2 ++ deleteCalls acc.1 k := by
            simp [historyStep, Event.joinCalls, hobj]
          rw [hcalls]
          by_cases hpk : p = k
          · subst hpk
            rw [handleDelete_of_key hobj] at hr
            obtain ⟨dc₁, hd, rfl⟩ := Option.map_eq_some'.1 hr
            exact (hp p).deleteByKey_self hf hd
          · refine (hp p).of_kept ?_ (keptExceptService_handleDelete h.join hobj hr hpk)
            simp [latestPod_deleteCalls, Ne.symm hpk]

theorem PodFollows.run (h : dc.Inv kindOf) (hf : dc.FollowsHistory acc)
    (hp : ∀ p, PodFollows dv acc.2 dc p) (hdv : ∀ pod, (dv.dimPropsForPod pod).isSome)
    {events : List Event} (he : ∀ e ∈ events, e.Agrees kindOf)
    (hr : dc.run dv propertyLinks events = some dc') :
    ∀ p, PodFollows dv (events.foldl historyStep acc).2 dc' p := by
  induction events generalizing dc acc with
  | nil =>
      cases hr
      exact hp
  | cons e es ih =>
      simp only [DatapointCache.run, List.foldlM_cons, Option.bind_eq_bind,
        Option.bind_eq_some] at hr
      obtain ⟨dc₁, h₁, h₂⟩ := hr
      have he₀ := he e (List.mem_cons_self _ _)
      exact ih (h.step he₀ h₁) (hf.step h₁) (PodFollows.step h hf hp hdv he₀ h₁)
        (fun e' h' => he e' (List.mem_cons_of_mem _ h')) h₂

/-- **The pods' records follow the latest pods.** When the pod derivation gives every pod a
record, in every state a run of events with one kind per UID reaches from a new cache, a key is
cached as a pod exactly when the latest call of the history on it sets a pod, and its record is
then the derivation's record of that latest pod, but for the `"service"` property: a relabelled
pod's record is replaced, and a deleted pod's is gone. -/
theorem pod_records_follow_latest_pods (dv : Derivations) (b : Bool) (events : List Event)
    (hkinds : OneKindPerUID events) (hdv : ∀ pod, (dv.dimPropsForPod pod).isSome) :
    ∃ σ, (newDatapointCache b).run dv propertyLinks events = some σ ∧ ∀ p,
      (σ.uidKindCache.lookup p = some "Pod" ↔ (latestPod (history events).2 p).isSome) ∧
      ∀ pod, latestPod (history events).2 p = some pod →
        ∃ d₀ d, dv.dimPropsForPod pod = some d₀ ∧ σ.dimPropCache.lookup p = some d ∧
          SameButService d₀ d := by
  obtain ⟨kindOf, hk⟩ := hkinds
  have h₀ : (newDatapointCache b).Inv kindOf := inv_newDatapointCache b
  obtain ⟨σ, hr, -⟩ := h₀.run_records (records_newDatapointCache b) hdv (agrees_of_kindsAgree hk)
  have hp := PodFollows.run h₀ (followsHistory_newDatapointCache b)
    (podFollows_newDatapointCache b) hdv (agrees_of_kindsAgree hk) hr
  refine ⟨σ, hr, fun p => ?_⟩
  have hpf : PodFollows dv (history events).2 σ p := hp p
  unfold PodFollows at hpf
  cases hl : latestPod (history events).2 p with
  | none =>
      rw [hl] at hpf
      exact ⟨iff_of_false hpf (by decide), nofun⟩
  | some pod =>
      rw [hl] at hpf
      exact ⟨iff_of_true hpf.1 rfl, fun _ hpod => Option.some.inj hpod ▸ hpf.2⟩

theorem pod_records_follow_latest_pods_of_relabelled_pod :
    let pod (app : String) : Resource :=
      ⟨⟨"p", "web-1", "ns", some ((∅ : Labels).insert "app" app), none⟩, []⟩
    let events := [Event.add (.pod (pod "foo")), .add (.pod (pod "bar"))]
    OneKindPerUID events ∧ (∀ pod, (podRecordsOnly.dimPropsForPod pod).isSome) ∧
      ∃ σ, (newDatapointCache false).run podRecordsOnly propertyLinks events = some σ ∧ ∀ p,
        (σ.uidKindCache.lookup p = some "Pod" ↔ (latestPod (history events).2 p).isSome) ∧
        ∀ pod, latestPod (history events).2 p = some pod →
          ∃ d₀ d, podRecordsOnly.dimPropsForPod pod = some d₀ ∧
            σ.dimPropCache.lookup p = some d ∧ SameButService d₀ d := by
  intro pod events
  have hk : OneKindPerUID events := ⟨fun _ => "Pod", by
    rintro obj hobj u k hu
    simp only [events, List.mem_cons, Event.add.injEq, List.not_mem_nil, or_false] at hobj
    rcases hobj with rfl | rfl <;> cases hu <;> rfl⟩
  have hdv : ∀ pod, (podRecordsOnly.dimPropsForPod pod).isSome := fun _ => rfl
  exact ⟨hk, hdv, pod_records_follow_latest_pods _ _ _ hk hdv⟩

end DatapointCache

end ClusterCache
