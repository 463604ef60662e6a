import ClusterCache.Proof.ServiceName

/-!
# The relation the join index holds

`SetPod` and `SetService` only ever add pairs, and only the deletes remove them. So a pod and a
service are joined exactly when, since both were last deleted, a set of one of them found the
latest version of the other matching: the latest service's selector matching the latest pod's
labels, in the same namespace. A pair stays joined when a later version stops matching; a
service set with an empty selector is ignored and leaves the previous one in place.

Each pair follows its own history (`PairHistory.step`), which reads no other pod or service. The
proof runs the variant without change detection, whose store steps record every call's fields,
and carries the result over by `sim_runCalls`.
-/

namespace ClusterCache

namespace PodServiceCache

open GoMap

/-- A pod and a service match: the service's selector matches the pod's labels, in the same
namespace. -/
def podMatches (pod : Resource) (svc : Service) : Bool :=
  (asSelectorPreValidated svc.selector).matches pod.labels && pod.ns == svc.ns

/-- What the calls so far say about the pod UID `p` and the service UID `s`: the pod of the
latest `SetPod` of `p` and the service of the latest `SetService` of `s` with a selector that is
not empty, each unless deleted since, and whether a set of either found the two matching since
both were last deleted. -/
structure PairHistory where
  pod : Option Resource
  svc : Option Service
  joined : Bool

/-- One more call on the pair `(p, s)`. -/
def PairHistory.step (p s : UID) (h : PairHistory) : Call → PairHistory
  | .setPod pod =>
      if pod.uid = p then { h with pod := some pod, joined := h.joined || h.svc.any (podMatches pod) }
      else h
  | .setService svc =>
      if (asSelectorPreValidated svc.selector).empty then h
      else if svc.uid = s then
        { h with svc := some svc, joined := h.joined || h.pod.any fun pod => podMatches pod svc }
      else h
  | .deletePodFromCache podUID =>
      if podUID = p then { h with pod := none, joined := false } else h
  | .deleteServiceFromCache svcUID =>
      if svcUID = s then { h with svc := none, joined := false } else h

/-- The history of the pair `(p, s)` over a sequence of calls from `NewPodServiceCache()`. -/
def pairHistory (calls : List Call) (p s : UID) : PairHistory :=
  calls.foldl (PairHistory.step p s) ⟨none, none, false⟩

variable {a : PodServiceCache} {p s : UID} {h : PairHistory}

/-- The join index stores for `p` and `s` the fields of the pair's latest pod and service, and
joins them, both ways, as the pair's history says. -/
structure PairFollows (p s : UID) (a : PodServiceCache) (h : PairHistory) : Prop where
  labels : a.podUIDLabelCache.lookup p = h.pod.map (·.labels)
  podNs : a.podUIDNamespaceCache.lookup p = h.pod.map (·.ns)
  selector : a.svcUIDSelectorCache.lookup s =
    h.svc.map fun svc => asSelectorPreValidated svc.selector
  svcNs : a.svcUIDNamespaceCache.lookup s = h.svc.map (·.ns)
  name : a.svcUIDNameCache.lookup s = h.svc.map (·.name)
  podSvc : a.podSvcUIDCache.Has p s ↔ h.joined = true
  svcPod : a.svcPodUIDCache.Has s p ↔ h.joined = true

theorem pairFollows_new (p s : UID) : PairFollows p s newPodServiceCache ⟨none, none, false⟩ :=
  ⟨rfl, rfl, rfl, rfl, rfl, by simp [newPodServiceCache], by simp [newPodServiceCache]⟩

/-- The stored fields of the pair match exactly when its latest pod and service do. -/
theorem PairFollows.storedMatch (hf : PairFollows p s a h) :
    a.StoredMatch p s ↔ ∃ pod svc, h.pod = some pod ∧ h.svc = some svc ∧ podMatches pod svc := by
  unfold StoredMatch
  simp only [getD, hf.selector, hf.labels, hf.podNs, hf.svcNs]
  cases h.pod <;> cases h.svc <;> simp [podMatches]

/-- Linking the pairs `pairs` joins `(p, s)` exactly when it is one of them or was joined. -/
theorem PairFollows.linkAll (hf : PairFollows p s a h) {pairs : List (UID × UID)} {joined : Bool}
    (hj : joined = true ↔ h.joined = true ∨ (p, s) ∈ pairs) :
    PairFollows p s (a.linkAll pairs) { h with joined := joined } :=
  ⟨by simpa using hf.labels, by simpa using hf.podNs, by simpa using hf.selector,
    by simpa using hf.svcNs, by simpa using hf.name, by simp [hf.podSvc, hj],
    by simp [hf.svcPod, hj]⟩

theorem PairFollows.storePod (hf : PairFollows p s a h) (pod : Resource) :
    PairFollows p s (a.storePod pod) (if pod.uid = p then { h with pod := some pod } else h) := by
  rcases eq_or_ne pod.uid p with rfl | hp
  · rw [if_pos rfl]
    exact ⟨by simp [PodServiceCache.storePod], by simp [PodServiceCache.storePod], hf.selector,
      hf.svcNs, hf.name, hf.podSvc, hf.svcPod⟩
  · rw [if_neg hp]
    exact ⟨by simpa [PodServiceCache.storePod, AList.lookup_insert_ne (Ne.symm hp)] using hf.labels,
      by simpa [PodServiceCache.storePod, AList.lookup_insert_ne (Ne.symm hp)] using hf.podNs,
      hf.selector, hf.svcNs, hf.name, hf.podSvc, hf.svcPod⟩

theorem PairFollows.storeService (hf : PairFollows p s a h) (svc : Service) :
    PairFollows p s (a.storeService svc)
      (if svc.uid = s then { h with svc := some svc } else h) := by
  rcases eq_or_ne svc.uid s with rfl | hs
  · rw [if_pos rfl]
    exact ⟨hf.labels, hf.podNs, by simp [PodServiceCache.storeService],
      by simp [PodServiceCache.storeService], by simp [PodServiceCache.storeService], hf.podSvc,
      hf.svcPod⟩
  · rw [if_neg hs]
    exact ⟨hf.labels, hf.podNs,
      by simpa [PodServiceCache.storeService, AList.lookup_insert_ne (Ne.symm hs)] using hf.selector,
      by simpa [PodServiceCache.storeService, AList.lookup_insert_ne (Ne.symm hs)] using hf.svcNs,
      by simpa [PodServiceCache.storeService, AList.lookup_insert_ne (Ne.symm hs)] using hf.name,
      hf.podSvc, hf.svcPod⟩

/-- `SetPod` without its change test stores the pod and joins it to the stored services it
matches. -/
theorem PairFollows.setPodAlways (hf : PairFollows p s a h) (pod : Resource) :
    PairFollows p s (a.setPodAlways pod) (h.step p s (.setPod pod)) := by
  have hstored := hf.storePod pod
  obtain ⟨pairs, heq, hmem⟩ := refreshCacheByPod_fst
    (show (a.storePod pod).podUIDNamespaceCache.getD pod.uid "" = pod.ns from
      getD_insert_self _ _ _ _)
  rw [PodServiceCache.setPodAlways, heq]
  simp only [PairHistory.step]
  rcases eq_or_ne pod.uid p with rfl | hp
  · rw [if_pos rfl] at hstored ⊢
    refine hstored.linkAll ?_
    rw [hmem, hstored.storedMatch]
    cases h.svc <;> simp
  · rw [if_neg hp] at hstored ⊢
    exact hstored.linkAll (by simp [hmem, Ne.symm hp])

/-- `SetService` without its change test ignores an empty selector, and otherwise stores the
service and joins it to the stored pods it matches. -/
theorem PairFollows.setServiceAlways (hf : PairFollows p s a h) (svc : Service) :
    PairFollows p s (a.setServiceAlways svc) (h.step p s (.setService svc)) := by
  simp only [PodServiceCache.setServiceAlways, PairHistory.step]
  by_cases he : (asSelectorPreValidated svc.selector).empty
  · rw [if_pos he, if_pos he]
    exact hf
  rw [if_neg he, if_neg he]
  have hstored := hf.storeService svc
  obtain ⟨pairs, heq, hmem⟩ := refreshCacheByService_fst
    (show (a.storeService svc).svcUIDNamespaceCache.getD svc.uid "" = svc.ns from
      getD_insert_self _ _ _ _)
  rw [heq]
  rcases eq_or_ne svc.uid s with rfl | hs
  · rw [if_pos rfl] at hstored ⊢
    refine hstored.linkAll ?_
    rw [hmem, hstored.storedMatch]
    cases h.pod <;> simp
  · rw [if_neg hs] at hstored ⊢
    exact hstored.linkAll (by simp [hmem, Ne.symm hs])

theorem PairFollows.deletePodFromCache (hf : PairFollows p s a h) (podUID : UID) :
    PairFollows p s (a.deletePodFromCache podUID) (h.step p s (.deletePodFromCache podUID)) := by
  simp only [PairHistory.step]
  rcases eq_or_ne podUID p with rfl | hp
  · rw [if_pos rfl]
    refine ⟨?_, ?_, hf.selector, hf.svcNs, hf.name, ?_, ?_⟩ <;>
      simp [PodServiceCache.deletePodFromCache, has_unlink_fst, has_unlink_snd, hf.podSvc,
        hf.svcPod]
  · rw [if_neg hp]
    refine ⟨?_, ?_, hf.selector, hf.svcNs, hf.name, ?_, ?_⟩
    · simpa [PodServiceCache.deletePodFromCache, AList.lookup_erase_ne (Ne.symm hp)] using hf.labels
    · simpa [PodServiceCache.deletePodFromCache, AList.lookup_erase_ne (Ne.symm hp)] using hf.podNs
    · simp [PodServiceCache.deletePodFromCache, has_unlink_fst, Ne.symm hp, hf.podSvc]
    · simp [PodServiceCache.deletePodFromCache, has_unlink_snd, Ne.symm hp, hf.svcPod]

theorem PairFollows.deleteServiceFromCache (hf : PairFollows p s a h) (svcUID : UID) :
    PairFollows p s (a.deleteServiceFromCache svcUID)
      (h.step p s (.deleteServiceFromCache svcUID)) := by
  simp only [PairHistory.step]
  rcases eq_or_ne svcUID s with rfl | hs
  · rw [if_pos rfl]
    refine ⟨hf.labels, hf.podNs, ?_, ?_, ?_, ?_, ?_⟩ <;>
      simp [PodServiceCache.deleteServiceFromCache, has_unlink_fst, has_unlink_snd, hf.podSvc,
        hf.svcPod]
  · rw [if_neg hs]
    refine ⟨hf.labels, hf.podNs, ?_, ?_, ?_, ?_, ?_⟩
    · simpa [PodServiceCache.deleteServiceFromCache, AList.lookup_erase_ne (Ne.symm hs)] using
        hf.selector
    · simpa [PodServiceCache.deleteServiceFromCache, AList.lookup_erase_ne (Ne.symm hs)] using
        hf.svcNs
    · simpa [PodServiceCache.deleteServiceFromCache, AList.lookup_erase_ne (Ne.symm hs)] using
        hf.name
    · simp [PodServiceCache.deleteServiceFromCache, has_unlink_snd, Ne.symm hs, hf.podSvc]
    · simp [PodServiceCache.deleteServiceFromCache, has_unlink_fst, Ne.symm hs, hf.svcPod]

theorem PairFollows.applyAlways (hf : PairFollows p s a h) (c : Call) :
    PairFollows p s (a.applyAlways c) (h.step p s c) := by
  cases c with
  | setPod pod => exact hf.setPodAlways pod
  | setService svc => exact hf.setServiceAlways svc
  | deletePodFromCache podUID => exact hf.deletePodFromCache podUID
  | deleteServiceFromCache svcUID => exact hf.deleteServiceFromCache svcUID

theorem PairFollows.foldl (hf : PairFollows p s a h) (calls : List Call) :
    PairFollows p s (calls.foldl PodServiceCache.applyAlways a)
      (calls.foldl (PairHistory.step p s) h) := by
  induction calls generalizing a h with
  | nil => exact hf
  | cons c cs ih => exact ih (hf.applyAlways c)

/-- What the join index a history builds reads for the pair `(p, s)`: whether they are joined,
and the name of the service. -/
theorem runCalls_pair (calls : List Call) (p s : UID) :
    ((runCalls calls).podSvcUIDCache.Has p s ↔ (pairHistory calls p s).joined = true) ∧
      (runCalls calls).svcUIDNameCache.getD s "" =
        ((pairHistory calls p s).svc.map (·.name)).getD "" := by
  have hf := (pairFollows_new p s).foldl calls
  have hsim := sim_runCalls calls
  exact ⟨(hsim.podSvc p s).trans hf.podSvc,
    (hsim.name s).trans (congrArg (Option.getD · "") hf.name)⟩

/-- **The join index joins the pairs matched since they were set.** After every sequence of
calls from `NewPodServiceCache()`, the pod `p` and the service `s` are joined, in both maps,
exactly when, since both were last deleted, a `SetPod` of `p` or a `SetService` of `s` with a
selector that is not empty found the latest versions of the two matching. -/
theorem join_index_joins_pairs_matched_since_set (calls : List Call) (p s : UID) :
    ((runCalls calls).podSvcUIDCache.Has p s ↔ (pairHistory calls p s).joined = true) ∧
      ((runCalls calls).svcPodUIDCache.Has s p ↔ (pairHistory calls p s).joined = true) := by
  have hf := (pairFollows_new p s).foldl calls
  have hsim := sim_runCalls calls
  exact ⟨(hsim.podSvc p s).trans hf.podSvc, (hsim.svcPod s p).trans hf.svcPod⟩

/-- After a history, `GetServiceNameForPodUID` errs exactly when no pair history joins a service
to the pod. -/
theorem getServiceNameForPodUID_runCalls_eq_error (calls : List Call) (p : UID) :
    (runCalls calls).getServiceNameForPodUID p = .error "no service matched pod" ↔
      ∀ t, (pairHistory calls p t).joined = false := by
  rw [getServiceNameForPodUID_eq_error]
  simp [(runCalls_pair calls p _).1]

/-- Otherwise it returns the byte-wise least of the latest names of the services joined to it. -/
theorem getServiceNameForPodUID_runCalls_eq_ok (calls : List Call) (p : UID) (n : String) :
    (runCalls calls).getServiceNameForPodUID p = .ok n ↔
      (∃ t, (pairHistory calls p t).joined = true ∧
        ((pairHistory calls p t).svc.map (·.name)).getD "" = n) ∧
      ∀ t, (pairHistory calls p t).joined = true →
        ¬goLess (((pairHistory calls p t).svc.map (·.name)).getD "") n := by
  rw [getServiceNameForPodUID_eq_ok]
  simp only [(runCalls_pair calls p _).1, (runCalls_pair calls p _).2]

/-- **The join index's lookups follow the pair histories.** After every sequence of calls from
`NewPodServiceCache()`, `GetPodUIDsForServiceUID(s)` lists, once each, the pods the pair histories
join to `s`; `GetServiceNameForPodUID(p)` errs exactly when no pair history joins a service to
`p`, and otherwise returns the byte-wise least of the latest names of the services joined to it. -/
theorem lookups_follow_pair_histories (calls : List Call) (p s : UID) :
    ((runCalls calls).getPodUIDsForServiceUID s).Nodup ∧
      (p ∈ (runCalls calls).getPodUIDsForServiceUID s ↔ (pairHistory calls p s).joined = true) ∧
      ((runCalls calls).getServiceNameForPodUID p = .error "no service matched pod" ↔
        ∀ t, (pairHistory calls p t).joined = false) ∧
      ∀ n, (runCalls calls).getServiceNameForPodUID p = .ok n ↔
        (∃ t, (pairHistory calls p t).joined = true ∧
          ((pairHistory calls p t).svc.map (·.name)).getD "" = n) ∧
        ∀ t, (pairHistory calls p t).joined = true →
          ¬goLess (((pairHistory calls p t).svc.map (·.name)).getD "") n := by
  refine ⟨nodup_getPodUIDsForServiceUID _ s, ?_, getServiceNameForPodUID_runCalls_eq_error calls p,
    getServiceNameForPodUID_runCalls_eq_ok calls p⟩
  rw [mem_getPodUIDsForServiceUID, ← (inv_runCalls calls).symm, (runCalls_pair calls p s).1]

/-! ### Exactness while matches are stable

The join index keeps a pair a relabelling separates. When no relabelling of the pod and no new
selector of the service changes whether the two match, that never happens, and the index joins
the pair exactly when its latest versions match. -/

/-- The pair's latest pod and latest service with a selector are both live and match. -/
def PairHistory.matches (h : PairHistory) : Bool :=
  match h.pod, h.svc with
  | some pod, some svc => podMatches pod svc
  | _, _ => false

theorem PairHistory.matches_eq_true :
    h.matches = true ↔ ∃ pod svc, h.pod = some pod ∧ h.svc = some svc ∧ podMatches pod svc = true := by
  obtain ⟨_ | pod, _ | svc, joined⟩ := h <;> simp [PairHistory.matches]

/-- Every version the calls set of the pod `p` and every version they set of the service `s`, with
a selector that is not empty, match alike. -/
def MatchStable (calls : List Call) (p s : UID) : Prop :=
  ∃ m, ∀ pod svc, Call.setPod pod ∈ calls → pod.uid = p → Call.setService svc ∈ calls →
    svc.uid = s → (asSelectorPreValidated svc.selector).empty = false → podMatches pod svc = m

/-- A pair history whose pod is one of the versions `V` and whose service is one of the versions
`W`, where every version of one matches every version of the other as `m` says, joins the pair
exactly when both are live and `m` holds. -/
structure ExactFor (V : Resource → Prop) (W : Service → Prop) (m : Bool) (h : PairHistory) :
    Prop where
  pod : ∀ pod, h.pod = some pod → V pod
  svc : ∀ svc, h.svc = some svc → W svc
  joined : h.joined = true ↔ h.pod.isSome ∧ h.svc.isSome ∧ m = true

theorem exactFor_new {V : Resource → Prop} {W : Service → Prop} {m : Bool} :
    ExactFor V W m ⟨none, none, false⟩ :=
  ⟨by simp, by simp, by simp⟩

section ExactFor

variable {V : Resource → Prop} {W : Service → Prop} {m : Bool}
  (hm : ∀ pod svc, V pod → W svc → podMatches pod svc = m)
include hm

theorem ExactFor.step (hx : ExactFor V W m h) {c : Call}
    (hV : ∀ pod, c = .setPod pod → pod.uid = p → V pod)
    (hW : ∀ svc, c = .setService svc → svc.uid = s →
      (asSelectorPreValidated svc.selector).empty = false → W svc) :
    ExactFor V W m (h.step p s c) := by
  cases c with
  | setPod pod =>
      simp only [PairHistory.step]
      split_ifs with hp
      · refine ⟨fun q hq => Option.some.inj hq ▸ hV pod rfl hp, hx.svc, ?_⟩
        cases hs : h.svc with
        | none => simpa [hs] using hx.joined
        | some svc =>
            have hj := hx.joined
            simp only [hs, Option.isSome_some, true_and] at hj
            simp [hm pod svc (hV pod rfl hp) (hx.svc svc hs), hj]
      · exact hx
  | setService svc =>
      simp only [PairHistory.step]
      split_ifs with he hs
      · exact hx
      · refine ⟨hx.pod, fun q hq => Option.some.inj hq ▸ hW svc rfl hs (by simpa using he), ?_⟩
        cases hp : h.pod with
        | none => simpa [hp] using hx.joined
        | some pod =>
            have hj := hx.joined
            simp only [hp, Option.isSome_some, true_and] at hj
            simp [hm pod svc (hx.pod pod hp) (hW svc rfl hs (by simpa using he)), hj]
      · exact hx
  | deletePodFromCache podUID =>
      simp only [PairHistory.step]
      split_ifs
      · exact ⟨by simp, hx.svc, by simp⟩
      · exact hx
  | deleteServiceFromCache svcUID =>
      simp only [PairHistory.step]
      split_ifs
      · exact ⟨hx.pod, by simp, by simp⟩
      · exact hx

theorem ExactFor.foldl (hx : ExactFor V W m h) (calls : List Call)
    (hV : ∀ pod, Call.setPod pod ∈ calls → pod.uid = p → V pod)
    (hW : ∀ svc, Call.setService svc ∈ calls → svc.uid = s →
      (asSelectorPreValidated svc.selector).empty = false → W svc) :
    ExactFor V W m (calls.foldl (PairHistory.step p s) h) := by
  induction calls generalizing h with
  | nil => exact hx
  | cons c cs ih =>
      exact ih (hx.step hm (fun pod hc => hV pod (hc ▸ List.mem_cons_self _ _))
          fun svc hc => hW svc (hc ▸ List.mem_cons_self _ _))
        (fun pod hc => hV pod (List.mem_cons_of_mem _ hc))
        fun svc hc => hW svc (List.mem_cons_of_mem _ hc)

/-- A history that keeps to the versions joins its pair exactly when the pair matches. -/
theorem ExactFor.joined_eq_matches (hx : ExactFor V W m h) : h.joined = h.matches := by
  rw [Bool.eq_iff_iff, hx.joined]
  obtain ⟨_ | pod, _ | svc, joined⟩ := h <;> simp only [PairHistory.matches, Option.isSome_none,
    Option.isSome_some, false_and, and_false, true_and, reduceCtorEq]
  rw [hm pod svc (hx.pod pod rfl) (hx.svc svc rfl)]

end ExactFor

/-- While matches are stable, a pair's history joins the pair exactly when its latest versions
match. -/
theorem joined_eq_matches_of_matchStable {calls : List Call} (hstable : MatchStable calls p s) :
    (pairHistory calls p s).joined = (pairHistory calls p s).matches := by
  obtain ⟨m, hm⟩ := hstable
  have hVW : ∀ pod svc, (Call.setPod pod ∈ calls ∧ pod.uid = p) →
      (Call.setService svc ∈ calls ∧ svc.uid = s ∧
        (asSelectorPreValidated svc.selector).empty = false) → podMatches pod svc = m :=
    fun pod svc hV hW => hm pod svc hV.1 hV.2 hW.1 hW.2.1 hW.2.2
  exact (ExactFor.foldl hVW exactFor_new calls (fun _ => And.intro)
    fun _ hc hs he => ⟨hc, hs, he⟩).joined_eq_matches hVW

/-- **The join index is exact while matches are stable.** After every sequence of calls from
`NewPodServiceCache()` in which every version of the pod `p` matches every version of the
service `s` with a selector alike, `p` and `s` are joined exactly when the latest pod of `p` and
the latest service of `s` with a selector, neither deleted since, match. -/
theorem join_index_exact_while_matches_stable (calls : List Call) (p s : UID)
    (hstable : MatchStable calls p s) :
    (runCalls calls).podSvcUIDCache.Has p s ↔
      ∃ pod svc, (pairHistory calls p s).pod = some pod ∧ (pairHistory calls p s).svc = some svc ∧
        podMatches pod svc = true := by
  rw [(runCalls_pair calls p s).1, joined_eq_matches_of_matchStable hstable,
    PairHistory.matches_eq_true]

theorem join_index_exact_while_matches_stable_of_relabelled_pod :
    let svc : Service := ⟨⟨"s", "web", "ns", none, none⟩, some ((∅ : Labels).insert "app" "web")⟩
    let pod (tier : String) : Resource :=
      ⟨⟨"p", "web-1", "ns", some (((∅ : Labels).insert "app" "web").insert "tier" tier), none⟩, []⟩
    let calls := [Call.setPod (pod "a"), .setService svc, .setPod (pod "b")]
    MatchStable calls "p" "s" ∧
      ((runCalls calls).podSvcUIDCache.Has "p" "s" ↔
        ∃ pod svc, (pairHistory calls "p" "s").pod = some pod ∧
          (pairHistory calls "p" "s").svc = some svc ∧ podMatches pod svc = true) := by
  intro svc pod calls
  have hstable : MatchStable calls "p" "s" := ⟨true, fun q t hq _ ht _ _ => by
    simp only [calls, List.mem_cons, Call.setPod.injEq, Call.setService.injEq, reduceCtorEq,
      List.not_mem_nil, or_false, false_or] at hq ht
    subst ht
    rcases hq with rfl | rfl <;> decide⟩
  exact ⟨hstable, join_index_exact_while_matches_stable calls "p" "s" hstable⟩

end PodServiceCache

end ClusterCache
