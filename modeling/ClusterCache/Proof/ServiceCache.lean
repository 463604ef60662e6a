import ClusterCache.PodCache

/-!
# The keys of the service cache

`AddService` writes the four maps of a service cache together, and `DeleteByKey` deletes from
the four together, so they keep one key set (`KeysAgree`). `GetMatchingServices` ranges over the
selector map and writes into the pod set of each service it matches, which is then in the pod
map too: it never writes into a missing set, and, writing only into sets the cache holds, it
keeps the key sets. Over any interleaving of the three calls of the cache with the pod matches of
any pod caches, the cache keeps one key set and no call panics.

Since the pod matches write only pod sets, the selector, name and namespace the cache records for
a UID are those of the latest `AddService` of it that was not ignored for an empty selector,
unless it was deleted since (`Follows`), and `IsCached` compares a service with that add.
`AddService` resets the pod set whether the service
changed or not, so the set holds the pods matched since that add (`PodSetFollows`).
-/

namespace ClusterCache

namespace ServiceCache

open GoMap

variable {sc : ServiceCache} {svc : Service} {k : UID}

/-- The four maps of the cache have the key set of its selector map. -/
structure KeysAgree (sc : ServiceCache) : Prop where
  pods : ∀ k, k ∈ sc.svcUIDPodsCache ↔ k ∈ sc.svcUIDSelectorCache
  name : ∀ k, k ∈ sc.svcUIDNameCache ↔ k ∈ sc.svcUIDSelectorCache
  ns : ∀ k, k ∈ sc.svcUIDNamespaceCache ↔ k ∈ sc.svcUIDSelectorCache

theorem keysAgree_new : newServiceCache.KeysAgree :=
  ⟨fun _ => Iff.rfl, fun _ => Iff.rfl, fun _ => Iff.rfl⟩

theorem KeysAgree.addService (h : sc.KeysAgree) (svc : Service) :
    (sc.addService svc).KeysAgree := by
  unfold ServiceCache.addService
  dsimp only
  split_ifs
  · exact h
  · exact ⟨fun k => by simp [h.pods k], fun k => by simp [h.name k], fun k => by simp [h.ns k]⟩

theorem KeysAgree.deleteByKey (h : sc.KeysAgree) (key : UID) :
    (sc.deleteByKey key).1.KeysAgree :=
  ⟨fun k => by simp [ServiceCache.deleteByKey, h.pods k],
    fun k => by simp [ServiceCache.deleteByKey, h.name k],
    fun k => by simp [ServiceCache.deleteByKey, h.ns k]⟩

/-- What `IsCached` reads off a cache whose maps have one key set: the service is recorded with
a deeply equal selector, its name and its namespace. -/
theorem KeysAgree.of_isCached (h : sc.KeysAgree) (hc : sc.isCached svc = true) :
    ∃ selector, sc.svcUIDSelectorCache.lookup svc.uid = some selector ∧
      deepEqual selector (asSelectorPreValidated svc.selector) = true ∧
      sc.svcUIDNameCache.lookup svc.uid = some svc.name ∧
      sc.svcUIDNamespaceCache.lookup svc.uid = some svc.ns := by
  unfold isCached at hc
  split at hc <;> rename_i selector hsel
  · simp only [Bool.and_eq_true, beq_iff_eq] at hc
    obtain ⟨⟨hdeep, hname⟩, hns⟩ := hc
    have hmem : svc.uid ∈ sc.svcUIDSelectorCache := AList.lookup_isSome.1 (by simp [hsel])
    obtain ⟨name, hn⟩ := Option.isSome_iff_exists.1 (AList.lookup_isSome.2 ((h.name _).2 hmem))
    obtain ⟨ns, hs⟩ := Option.isSome_iff_exists.1 (AList.lookup_isSome.2 ((h.ns _).2 hmem))
    refine ⟨selector, hsel, hdeep, ?_, ?_⟩
    · rw [hn, ← hname, getD_of_lookup_eq_some hn]
    · rw [hs, ← hns, getD_of_lookup_eq_some hs]
  · simp at hc

/-- A service just added with a selector that is not empty is reported cached. -/
theorem isCached_addService (sc : ServiceCache) (svc : Service)
    (h : (asSelectorPreValidated svc.selector).empty = false) :
    (sc.addService svc).isCached svc = true := by
  simp [isCached, ServiceCache.addService, h, getD, deepEqual_self]

/-- The service `s` of `sc` selects the pod `podUID` of `pc`: the pod has cached labels,
the service's cached selector matches them, and the two cached namespaces are equal. -/
def Selects (sc : ServiceCache) (pc : PodCache) (podUID s : UID) : Prop :=
  ∃ labelSet, pc.podUIDLabelCache.lookup podUID = some labelSet ∧
    ∃ selector, sc.svcUIDSelectorCache.lookup s = some selector ∧
      selector.matches labelSet = true ∧
      sc.svcUIDNamespaceCache.getD s "" = pc.podUIDNamespaceCache.getD podUID ""

end ServiceCache

namespace PodCache

open GoMap ServiceCache

variable (pc : PodCache) (podUID : UID) (labelSet : Option Labels)

/-- At a service the cache holds, the loop of `GetMatchingServices` writes into a pod set that is
there, and so keeps the key sets. -/
theorem matchStep_of_mem {acc : ServiceCache × List String} (h : acc.1.KeysAgree)
    {e : Σ _ : UID, Selector}
    (he : e.1 ∈ acc.1.svcUIDSelectorCache) :
    ∃ acc', pc.matchStep podUID labelSet acc e = some acc' ∧ acc'.1.KeysAgree ∧
      acc'.1.svcUIDSelectorCache = acc.1.svcUIDSelectorCache := by
  unfold matchStep
  dsimp only
  split_ifs
  · obtain ⟨pods, hpods⟩ :=
      Option.isSome_iff_exists.1 (AList.lookup_isSome.2 ((h.pods e.1).2 he))
    rw [hpods]
    refine ⟨_, rfl, ⟨fun k => ?_, h.name, h.ns⟩, rfl⟩
    simp only [AList.mem_insert, h.pods k]
    exact ⟨fun hk => hk.elim (· ▸ he) id, .inr⟩
  · exact ⟨acc, rfl, h, rfl⟩

theorem foldlM_matchStep (es : List (Σ _ : UID, Selector)) (acc : ServiceCache × List String)
    (h : acc.1.KeysAgree)
    (hes : ∀ e ∈ es, e.1 ∈ acc.1.svcUIDSelectorCache) :
    ∃ acc', es.foldlM (pc.matchStep podUID labelSet) acc = some acc' ∧ acc'.1.KeysAgree := by
  induction es generalizing acc with
  | nil => exact ⟨acc, rfl, h⟩
  | cons e es ih =>
      obtain ⟨acc₁, hstep, h₁, hsel⟩ :=
        matchStep_of_mem pc podUID labelSet h (hes e (List.mem_cons_self e es))
      rw [List.foldlM_cons, hstep]
      exact ih acc₁ h₁ fun e' he' => hsel ▸ hes e' (List.mem_cons_of_mem e he')

/-- On a cache whose maps have one key set, `GetMatchingServices` does not panic, and keeps the
key sets. -/
theorem getMatchingServices_keysAgree {sc : ServiceCache} (h : sc.KeysAgree) :
    ∃ r, pc.getMatchingServices podUID sc = some r ∧ r.1.KeysAgree := by
  unfold getMatchingServices
  split
  · exact foldlM_matchStep pc podUID _ _ (sc, []) h
      fun e he => AList.mem_keys.1 (List.mem_map_of_mem Sigma.fst he)
  · exact ⟨(sc, []), rfl, h⟩

/-! ### What `GetMatchingServices` returns -/

/-- The test of the loop of `GetMatchingServices` at the cached service `e`, against the
namespace map `svcNs` of the service cache. -/
def matchesPod (svcNs : GoMap UID String) (e : Σ _ : UID, Selector) : Bool :=
  e.2.matches labelSet && svcNs.getD e.1 "" == pc.podUIDNamespaceCache.getD podUID ""

/-- At a service with a pod set, the loop adds the pod to the set and appends the service's name
when the service matches, and does nothing otherwise. -/
theorem matchStep_eq {acc : ServiceCache × List String} {e : Σ _ : UID, Selector}
    (he : e.1 ∈ acc.1.svcUIDPodsCache) :
    pc.matchStep podUID labelSet acc e =
      some (if pc.matchesPod podUID labelSet acc.1.svcUIDNamespaceCache e then
        ({ acc.1 with svcUIDPodsCache := acc.1.svcUIDPodsCache.addTo e.1 podUID },
          acc.2 ++ [acc.1.svcUIDNameCache.getD e.1 ""])
      else acc) := by
  obtain ⟨pods, hpods⟩ := Option.isSome_iff_exists.1 (AList.lookup_isSome.2 he)
  unfold matchStep
  cases ht : pc.matchesPod podUID labelSet acc.1.svcUIDNamespaceCache e <;>
    simp only [matchesPod] at ht <;> simp [ht, hpods, addTo]

/-- Over any enumeration of services with pod sets, the loop adds the pod to the sets of those
that match and appends their names, in the order of the enumeration. -/
theorem foldlM_matchStep_eq (es : List (Σ _ : UID, Selector)) (acc : ServiceCache × List String)
    (hes : ∀ e ∈ es, e.1 ∈ acc.1.svcUIDPodsCache) :
    es.foldlM (pc.matchStep podUID labelSet) acc =
      some ({ acc.1 with
        svcUIDPodsCache :=
          ((es.filter (pc.matchesPod podUID labelSet acc.1.svcUIDNamespaceCache)).map
            Sigma.fst).foldl (fun r s => addTo r s podUID) acc.1.svcUIDPodsCache },
        acc.2 ++ (es.filter (pc.matchesPod podUID labelSet acc.1.svcUIDNamespaceCache)).map
          fun e => acc.1.svcUIDNameCache.getD e.1 "") := by
  induction es generalizing acc with
  | nil =>
      simp only [List.filter_nil, List.map_nil, List.foldl_nil, List.append_nil]
      rfl
  | cons e es ih =>
      have hes' : ∀ e' ∈ es, e'.1 ∈ acc.1.svcUIDPodsCache := fun e' he' =>
        hes e' (List.mem_cons_of_mem e he')
      rw [List.foldlM_cons, matchStep_eq pc podUID labelSet (hes e (List.mem_cons_self e es)),
        Option.bind_eq_bind, Option.some_bind]
      split_ifs with ht
      · rw [ih _ fun e' he' => mem_addTo.2 (.inr (hes' e' he'))]
        simp [List.filter_cons, ht]
      · rw [ih acc hes']
        simp [List.filter_cons, ht]

/-- The services the loop matches, enumerating the selector map of `sc`. -/
theorem mem_filter_matchesPod {sc : ServiceCache} {s : UID} :
    s ∈ (sc.svcUIDSelectorCache.entries.filter
        (pc.matchesPod podUID labelSet sc.svcUIDNamespaceCache)).map Sigma.fst ↔
      ∃ selector, sc.svcUIDSelectorCache.lookup s = some selector ∧
        selector.matches labelSet = true ∧
        sc.svcUIDNamespaceCache.getD s "" = pc.podUIDNamespaceCache.getD podUID "" := by
  simp only [List.mem_map, List.mem_filter, matchesPod, Bool.and_eq_true, beq_iff_eq]
  constructor
  · rintro ⟨⟨s', selector⟩, ⟨hmem, ht⟩, rfl⟩
    exact ⟨selector, AList.mem_lookup_iff.2 hmem, ht⟩
  · rintro ⟨selector, hsel, ht⟩
    exact ⟨⟨s, selector⟩, ⟨AList.mem_lookup_iff.1 hsel, ht⟩, rfl⟩

/-- On a cache whose maps have one key set, `GetMatchingServices` returns the names of the
services that select the pod, each service once, and adds the pod to exactly their pod sets;
nothing else changes. -/
theorem getMatchingServices_eq_of_keysAgree {sc : ServiceCache} (h : sc.KeysAgree) :
    ∃ svcs : List UID, svcs.Nodup ∧ (∀ s, s ∈ svcs ↔ sc.Selects pc podUID s) ∧
      ∃ pods, pc.getMatchingServices podUID sc =
          some ({ sc with svcUIDPodsCache := pods },
            svcs.map fun s => sc.svcUIDNameCache.getD s "") ∧
        ∀ s q, pods.Has s q ↔ sc.svcUIDPodsCache.Has s q ∨ (s ∈ svcs ∧ q = podUID) := by
  unfold getMatchingServices
  split
  · next labelSet hl =>
      have hfold := foldlM_matchStep_eq pc podUID labelSet sc.svcUIDSelectorCache.entries (sc, [])
        fun e he => (h.pods _).2 (AList.mem_keys.1 (List.mem_map_of_mem Sigma.fst he))
      refine ⟨(sc.svcUIDSelectorCache.entries.filter
          (pc.matchesPod podUID labelSet sc.svcUIDNamespaceCache)).map Sigma.fst,
        ((List.filter_sublist _).map Sigma.fst).nodup sc.svcUIDSelectorCache.nodupKeys,
        fun s => ?_, _, by rw [hfold]; simp [List.map_map], fun s q => has_foldl_addTo _ _ _ _⟩
      simp only [ServiceCache.Selects, hl, Option.some.injEq, exists_eq_left']
      exact mem_filter_matchesPod pc podUID labelSet
  · next hl =>
      refine ⟨[], List.nodup_nil, fun s => ?_, sc.svcUIDPodsCache, rfl, fun s q => by simp⟩
      simp [ServiceCache.Selects, hl]

end PodCache

namespace ServiceCache

theorem KeysAgree.apply {sc : ServiceCache} (h : sc.KeysAgree) (c : ServiceCall) :
    ∃ sc', sc.apply c = some sc' ∧ sc'.KeysAgree := by
  cases c with
  | addService svc => exact ⟨_, rfl, h.addService svc⟩
  | delete svc => exact ⟨_, rfl, h.deleteByKey svc.uid⟩
  | deleteByKey key => exact ⟨_, rfl, h.deleteByKey key⟩
  | getMatchingServices pc podUID =>
      obtain ⟨r, hr, hk⟩ := PodCache.getMatchingServices_keysAgree pc podUID h
      exact ⟨r.1, by simp [ServiceCache.apply, hr], hk⟩

theorem foldlM_apply_keysAgree (calls : List ServiceCall) {sc : ServiceCache}
    (h : sc.KeysAgree) :
    ∃ sc', calls.foldlM ServiceCache.apply sc = some sc' ∧ sc'.KeysAgree := by
  induction calls generalizing sc with
  | nil => exact ⟨sc, rfl, h⟩
  | cons c cs ih =>
      obtain ⟨sc₁, h₁, hk⟩ := h.apply c
      rw [List.foldlM_cons, h₁]
      exact ih hk

theorem runServiceCalls_keysAgree (calls : List ServiceCall) :
    ∃ sc, runServiceCalls calls = some sc ∧ sc.KeysAgree :=
  foldlM_apply_keysAgree calls keysAgree_new

/-- **One key set.** After every interleaving of `AddService`, `Delete` and `DeleteByKey` with
`GetMatchingServices` of any pod caches, from `NewServiceCache()`, no call has panicked, the four
maps of the service cache have one key set, and a further `GetMatchingServices` does not
panic either. -/
theorem service_cache_keys_agree (calls : List ServiceCall) :
    ∃ sc, runServiceCalls calls = some sc ∧ sc.KeysAgree ∧
      ∀ (pc : PodCache) (podUID : UID), ∃ r, pc.getMatchingServices podUID sc = some r := by
  obtain ⟨sc, hrun, hk⟩ := runServiceCalls_keysAgree calls
  exact ⟨sc, hrun, hk, fun pc podUID =>
    (PodCache.getMatchingServices_keysAgree pc podUID hk).imp fun _ => And.left⟩

/-- After every interleaving of `AddService`, `Delete` and `DeleteByKey` with
`GetMatchingServices` of any pod caches, from `NewServiceCache()`, a further
`GetMatchingServices` of any pod returns the names of the services that select it, each service
once, adds the pod to exactly their pod sets, and changes nothing else. -/
theorem getMatchingServices_names_selecting_services (calls : List ServiceCall) :
    ∃ sc, runServiceCalls calls = some sc ∧ ∀ (pc : PodCache) (podUID : UID),
      ∃ svcs : List UID, svcs.Nodup ∧ (∀ s, s ∈ svcs ↔ sc.Selects pc podUID s) ∧
        ∃ pods, pc.getMatchingServices podUID sc =
            some ({ sc with svcUIDPodsCache := pods },
              svcs.map fun s => sc.svcUIDNameCache.getD s "") ∧
          ∀ s q, pods.Has s q ↔ sc.svcUIDPodsCache.Has s q ∨ (s ∈ svcs ∧ q = podUID) := by
  obtain ⟨sc, hrun, hk⟩ := runServiceCalls_keysAgree calls
  exact ⟨sc, hrun, fun pc podUID => PodCache.getMatchingServices_eq_of_keysAgree pc podUID hk⟩

end ServiceCache

/-! ### What the service cache holds after a history -/

/-- The service a call leaves recorded under `s`, given the one before it: `AddService` of `s`
with a selector that is not empty records it, and `Delete` or `DeleteByKey` of `s` deletes it. -/
def ServiceCall.latest (s : UID) (latest : Option Service) : ServiceCall → Option Service
  | .addService svc =>
      if (asSelectorPreValidated svc.selector).empty then latest
      else if svc.uid = s then some svc else latest
  | .delete svc => if svc.uid = s then none else latest
  | .deleteByKey key => if key = s then none else latest
  | .getMatchingServices _ _ => latest

/-- The service of the latest `AddService` of `s` with a selector that is not empty, unless a
`Delete` or `DeleteByKey` of `s` came after. -/
def latestAddedService (calls : List ServiceCall) (s : UID) : Option Service :=
  calls.foldl (ServiceCall.latest s) none

namespace ServiceCache

variable {sc sc' : ServiceCache} {s : UID} {latest : Option Service}

/-- The cache records under `s` the selector, name and namespace of `latest`, or nothing. -/
structure Follows (sc : ServiceCache) (s : UID) (latest : Option Service) : Prop where
  selector : sc.svcUIDSelectorCache.lookup s =
    latest.map fun svc => asSelectorPreValidated svc.selector
  name : sc.svcUIDNameCache.lookup s = latest.map (·.name)
  ns : sc.svcUIDNamespaceCache.lookup s = latest.map (·.ns)

theorem Follows.addService (h : sc.Follows s latest) (svc : Service) :
    (sc.addService svc).Follows s (ServiceCall.latest s latest (.addService svc)) := by
  unfold ServiceCache.addService ServiceCall.latest
  dsimp only
  split_ifs with he hs
  · exact h
  · subst hs
    refine ⟨?_, ?_, ?_⟩ <;> simp
  · refine ⟨?_, ?_, ?_⟩ <;>
      simp [AList.lookup_insert_ne (Ne.symm hs), h.selector, h.name, h.ns]

theorem Follows.deleteByKey (h : sc.Follows s latest) (key : UID) :
    (sc.deleteByKey key).1.Follows s (if key = s then none else latest) := by
  rcases eq_or_ne key s with rfl | hs
  · refine ⟨?_, ?_, ?_⟩ <;> simp [ServiceCache.deleteByKey]
  · refine ⟨?_, ?_, ?_⟩ <;>
      simp [ServiceCache.deleteByKey, hs, AList.lookup_erase_ne (Ne.symm hs), h.selector, h.name,
        h.ns]

/-- One call moves the recorded fields of `s` as `ServiceCall.latest` says. -/
theorem Follows.apply (h : sc.Follows s latest) (hk : sc.KeysAgree) {c : ServiceCall}
    (hc : sc.apply c = some sc') : sc'.Follows s (ServiceCall.latest s latest c) := by
  cases c with
  | addService svc =>
      cases hc
      exact h.addService svc
  | delete svc =>
      cases hc
      exact h.deleteByKey svc.uid
  | deleteByKey key =>
      cases hc
      exact h.deleteByKey key
  | getMatchingServices pc podUID =>
      obtain ⟨_, -, -, pods, hr, -⟩ := PodCache.getMatchingServices_eq_of_keysAgree pc podUID hk
      simp only [ServiceCache.apply, hr, Option.map_some', Option.some.injEq] at hc
      subst hc
      exact ⟨h.selector, h.name, h.ns⟩

theorem Follows.foldlM (h : sc.Follows s latest) (hk : sc.KeysAgree) (calls : List ServiceCall) :
    ∃ sc', calls.foldlM ServiceCache.apply sc = some sc' ∧
      sc'.Follows s (calls.foldl (ServiceCall.latest s) latest) := by
  induction calls generalizing sc latest with
  | nil => exact ⟨sc, rfl, h⟩
  | cons c cs ih =>
      obtain ⟨sc₁, h₁, hk₁⟩ := hk.apply c
      rw [List.foldlM_cons, h₁]
      exact ih (h.apply hk h₁) hk₁

/-- A run of the calls records for every UID the fields of its latest add. -/
theorem follows_runServiceCalls {calls : List ServiceCall} (hrun : runServiceCalls calls = some sc)
    (s : UID) : sc.Follows s (latestAddedService calls s) := by
  obtain ⟨sc', hrun', h⟩ :=
    (⟨rfl, rfl, rfl⟩ : newServiceCache.Follows s none).foldlM keysAgree_new calls
  cases hrun.symm.trans hrun'
  exact h

/-- **The service cache follows the latest adds.** After every interleaving of `AddService`,
`Delete` and `DeleteByKey` with `GetMatchingServices` of any pod caches, from
`NewServiceCache()`, no call has panicked, and the cache records for each UID the selector, name
and namespace of the latest `AddService` of it whose selector is not empty, unless a `Delete` or
`DeleteByKey` of it came after: an update to an empty selector leaves the previous version's
fields recorded. -/
theorem service_cache_follows_latest_adds (calls : List ServiceCall) :
    ∃ sc, runServiceCalls calls = some sc ∧ ∀ s,
      sc.svcUIDSelectorCache.lookup s =
        (latestAddedService calls s).map (fun svc => asSelectorPreValidated svc.selector) ∧
      sc.svcUIDNameCache.lookup s = (latestAddedService calls s).map (·.name) ∧
      sc.svcUIDNamespaceCache.lookup s = (latestAddedService calls s).map (·.ns) := by
  obtain ⟨sc, hrun, -⟩ := runServiceCalls_keysAgree calls
  exact ⟨sc, hrun, fun s =>
    let h := follows_runServiceCalls hrun s
    ⟨h.selector, h.name, h.ns⟩⟩

/-- **`IsCached` compares a service with its latest add.** After every interleaving of
`AddService`, `Delete` and `DeleteByKey` with `GetMatchingServices` of any pod caches, from
`NewServiceCache()`, `IsCached(svc)` holds exactly when the latest `AddService` of its UID with a
selector that is not empty, not deleted since, has a selector deeply equal to its own, its name
and its namespace. -/
theorem isCached_runServiceCalls (calls : List ServiceCall) :
    ∃ sc, runServiceCalls calls = some sc ∧ ∀ svc, sc.isCached svc = true ↔
      ∃ latest, latestAddedService calls svc.uid = some latest ∧
        GoMap.deepEqual (asSelectorPreValidated latest.selector)
          (asSelectorPreValidated svc.selector) = true ∧
        latest.name = svc.name ∧ latest.ns = svc.ns := by
  obtain ⟨sc, hrun, -⟩ := runServiceCalls_keysAgree calls
  refine ⟨sc, hrun, fun svc => ?_⟩
  have h := follows_runServiceCalls hrun svc.uid
  simp only [isCached, GoMap.getD, h.selector, h.name, h.ns, Bool.and_eq_true, beq_iff_eq,
    and_assoc]
  cases latestAddedService calls svc.uid <;> simp

end ServiceCache

/-! ### The pods recorded for a service -/

/-- Whether the pod cache `pc` holds labels for `q` that the service's selector matches, with
the service's namespace: what `GetMatchingServices` of `q` tests of the service. -/
def selectsPod (pc : PodCache) (q : UID) (svc : Service) : Bool :=
  match pc.podUIDLabelCache.lookup q with
  | some labelSet =>
      (asSelectorPreValidated svc.selector).matches labelSet &&
        svc.ns == pc.podUIDNamespaceCache.getD q ""
  | none => false

/-- What the calls so far say about the service UID `s` and the pod UID `q`: the service `s`
holds, and whether a `GetMatchingServices` of `q` found it selecting the pod since it was last
added. -/
structure SelectionHistory where
  svc : Option Service
  recorded : Bool

/-- One more call on the service `s` and the pod `q`: an `AddService` of `s` that is not ignored
empties its pod set, and so does a delete. -/
def SelectionHistory.step (s q : UID) (h : SelectionHistory) : ServiceCall → SelectionHistory
  | .addService svc =>
      if (asSelectorPreValidated svc.selector).empty then h
      else if svc.uid = s then ⟨some svc, false⟩ else h
  | .delete svc => if svc.uid = s then ⟨none, false⟩ else h
  | .deleteByKey key => if key = s then ⟨none, false⟩ else h
  | .getMatchingServices pc podUID =>
      if podUID = q then { h with recorded := h.recorded || h.svc.any (selectsPod pc q) } else h

/-- The history of the service `s` and the pod `q` over a sequence of calls from
`NewServiceCache()`. -/
def selectionHistory (calls : List ServiceCall) (s q : UID) : SelectionHistory :=
  calls.foldl (SelectionHistory.step s q) ⟨none, false⟩

namespace ServiceCache

variable {sc sc' : ServiceCache} {s q : UID} {h : SelectionHistory}

/-- The cache records the fields of the service of the history, and the pod in its pod set as
the history says. -/
structure PodSetFollows (s q : UID) (sc : ServiceCache) (h : SelectionHistory) : Prop where
  follows : sc.Follows s h.svc
  pods : sc.svcUIDPodsCache.Has s q ↔ h.recorded = true

/-- The service selects the pod exactly when the service of the history does. -/
theorem PodSetFollows.selects (hr : PodSetFollows s q sc h) (pc : PodCache) :
    sc.Selects pc q s ↔ h.svc.any (selectsPod pc q) = true := by
  unfold Selects
  simp only [GoMap.getD, hr.follows.selector, hr.follows.ns]
  cases h.svc <;> cases hl : pc.podUIDLabelCache.lookup q <;> simp [selectsPod, GoMap.getD, hl]

theorem PodSetFollows.apply (hr : PodSetFollows s q sc h) (hk : sc.KeysAgree) {c : ServiceCall}
    (hc : sc.apply c = some sc') : PodSetFollows s q sc' (h.step s q c) := by
  have hf := hr.follows.apply hk hc
  cases c with
  | addService svc =>
      cases hc
      simp only [ServiceCall.latest, SelectionHistory.step] at hf ⊢
      by_cases he : (asSelectorPreValidated svc.selector).empty
      · rw [if_pos he] at hf ⊢
        exact ⟨hf, by simpa [ServiceCache.addService, he] using hr.pods⟩
      rw [if_neg he] at hf ⊢
      by_cases hs : svc.uid = s
      · rw [if_pos hs] at hf ⊢
        exact ⟨hf, by simp [ServiceCache.addService, he, hs]⟩
      · rw [if_neg hs] at hf ⊢
        exact ⟨hf, by simpa [ServiceCache.addService, he, Ne.symm hs] using hr.pods⟩
  | delete svc =>
      cases hc
      simp only [ServiceCall.latest, SelectionHistory.step] at hf ⊢
      split_ifs at hf ⊢ with hs
      · exact ⟨hf, by simp [ServiceCache.delete, ServiceCache.deleteByKey, hs]⟩
      · exact ⟨hf, by simpa [ServiceCache.delete, ServiceCache.deleteByKey, Ne.symm hs] using
          hr.pods⟩
  | deleteByKey key =>
      cases hc
      simp only [ServiceCall.latest, SelectionHistory.step] at hf ⊢
      split_ifs at hf ⊢ with hs
      · exact ⟨hf, by simp [ServiceCache.deleteByKey, hs]⟩
      · exact ⟨hf, by simpa [ServiceCache.deleteByKey, Ne.symm hs] using hr.pods⟩
  | getMatchingServices pc podUID =>
      obtain ⟨_, -, hsvcs, pods, hm, hpods⟩ :=
        PodCache.getMatchingServices_eq_of_keysAgree pc podUID hk
      simp only [ServiceCache.apply, hm, Option.map_some', Option.some.injEq] at hc
      subst hc
      simp only [SelectionHistory.step]
      split_ifs with hq
      · subst hq
        refine ⟨hf, ?_⟩
        show pods.Has s podUID ↔ _
        rw [hpods, hsvcs, hr.pods, hr.selects]
        simp
      · refine ⟨hf, ?_⟩
        show pods.Has s q ↔ _
        rw [hpods, hsvcs, hr.pods]
        simp [Ne.symm hq]

theorem PodSetFollows.foldlM (hr : PodSetFollows s q sc h) (hk : sc.KeysAgree) (calls : List ServiceCall) :
    ∃ sc', calls.foldlM ServiceCache.apply sc = some sc' ∧
      PodSetFollows s q sc' (calls.foldl (SelectionHistory.step s q) h) := by
  induction calls generalizing sc h with
  | nil => exact ⟨sc, rfl, hr⟩
  | cons c cs ih =>
      obtain ⟨sc₁, h₁, hk₁⟩ := hk.apply c
      rw [List.foldlM_cons, h₁]
      exact ih (hr.apply hk h₁) hk₁

/-- **A service's pods are those matched since it was last added.** After every interleaving of
`AddService`, `Delete` and `DeleteByKey` with `GetMatchingServices` of any pod caches, from
`NewServiceCache()`, the pod set of the service `s` holds the pod `q` exactly when a
`GetMatchingServices` of `q` found `s` selecting it since the latest `AddService` of `s` that was
not ignored, and `s` was not deleted since: adding a service again, even unchanged, empties its
pod set. -/
theorem service_pods_matched_since_last_add (calls : List ServiceCall) :
    ∃ sc, runServiceCalls calls = some sc ∧ ∀ s q,
      sc.svcUIDPodsCache.Has s q ↔ (selectionHistory calls s q).recorded = true := by
  obtain ⟨sc, hrun, -⟩ := runServiceCalls_keysAgree calls
  refine ⟨sc, hrun, fun s q => ?_⟩
  obtain ⟨sc', hrun', hr⟩ :=
    (⟨⟨rfl, rfl, rfl⟩, by simp [newServiceCache]⟩ : PodSetFollows s q newServiceCache ⟨none, false⟩).foldlM
      keysAgree_new calls
  cases hrun.symm.trans hrun'
  exact hr.pods

end ServiceCache

end ClusterCache
