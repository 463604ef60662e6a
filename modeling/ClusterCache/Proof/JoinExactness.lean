import ClusterCache.Proof.JoinIndex

/-!
# The join index is complete, not exact

Every pair of a cached pod and a cached service whose stored selector matches the pod's stored
labels, in the same namespace, is in the relation, and every call keeps it so (`Complete`). The
converse fails: the refresh loops only ever add pairs. A pod whose labels change keeps the
services of its old labels, and a service whose selector or namespace changes keeps the pods of
its old ones, although `SetPod` and `SetService` are there to refresh the mappings.
-/

namespace ClusterCache

namespace PodServiceCache

open GoMap

variable {psc : PodServiceCache} {p s : UID}

/-- Every stored pair that matches is in the relation. -/
def Complete (psc : PodServiceCache) : Prop :=
  ∀ p s, psc.StoredMatch p s → psc.podSvcUIDCache.Has p s

theorem storedMatch_linkAll {pairs : List (UID × UID)} :
    (psc.linkAll pairs).StoredMatch p s ↔ psc.StoredMatch p s := by
  simp [StoredMatch]

theorem complete_newPodServiceCache : Complete newPodServiceCache := by
  rintro p s ⟨_, _, h, -⟩
  simp [newPodServiceCache] at h

/-- Refreshing a pod completes the relation for it, when it was complete for every other pod. -/
theorem complete_refreshCacheByPod {pod : Resource}
    (h : ∀ p s, p ≠ pod.uid → psc.StoredMatch p s → psc.podSvcUIDCache.Has p s)
    (hns : psc.podUIDNamespaceCache.getD pod.uid "" = pod.ns) :
    (psc.refreshCacheByPod pod).1.Complete := by
  obtain ⟨pairs, heq, hmem⟩ := refreshCacheByPod_fst hns
  rw [heq]
  intro p s hm
  rw [storedMatch_linkAll] at hm
  rw [has_podSvc_linkAll]
  by_cases hp : p = pod.uid
  · exact .inr ((hmem p s).2 ⟨hp, hm⟩)
  · exact .inl (h p s hp hm)

/-- Refreshing a service completes the relation for it, when it was complete for every other
service. -/
theorem complete_refreshCacheByService {svc : Service}
    (h : ∀ p s, s ≠ svc.uid → psc.StoredMatch p s → psc.podSvcUIDCache.Has p s)
    (hns : psc.svcUIDNamespaceCache.getD svc.uid "" = svc.ns) :
    (psc.refreshCacheByService svc).1.Complete := by
  obtain ⟨pairs, heq, hmem⟩ := refreshCacheByService_fst hns
  rw [heq]
  intro p s hm
  rw [storedMatch_linkAll] at hm
  rw [has_podSvc_linkAll]
  by_cases hs : s = svc.uid
  · exact .inr ((hmem p s).2 ⟨hs, hm⟩)
  · exact .inl (h p s hs hm)

theorem Complete.setPod (h : psc.Complete) (pod : Resource) : (psc.setPod pod).Complete := by
  unfold PodServiceCache.setPod
  split_ifs
  · exact h
  · apply complete_refreshCacheByPod _ (getD_insert_self _ _ _ _)
    rintro p s hp ⟨sel, ls, hs, hl, hmatch, hns⟩
    refine h p s ⟨sel, ls, hs, ?_, hmatch, ?_⟩
    · simpa [AList.lookup_insert_ne hp] using hl
    · simpa [getD_insert_of_ne _ _ _ hp] using hns

theorem Complete.setService (h : psc.Complete) (svc : Service) : (psc.setService svc).Complete := by
  unfold PodServiceCache.setService
  dsimp only
  split_ifs
  · exact h
  · exact h
  · apply complete_refreshCacheByService _ (getD_insert_self _ _ _ _)
    rintro p s hs ⟨sel, ls, hsel, hl, hmatch, hns⟩
    refine h p s ⟨sel, ls, ?_, hl, hmatch, ?_⟩
    · simpa [AList.lookup_insert_ne hs] using hsel
    · simpa [getD_insert_of_ne _ _ _ hs] using hns

theorem Complete.deletePodFromCache (h : psc.Complete) (podUID : UID) :
    (psc.deletePodFromCache podUID).Complete := by
  rintro p s ⟨sel, ls, hsel, hl, hmatch, hns⟩
  have hp : p ≠ podUID := by
    rintro rfl
    simp [PodServiceCache.deletePodFromCache] at hl
  simp only [PodServiceCache.deletePodFromCache, has_unlink_fst] at hl hns ⊢
  rw [AList.lookup_erase_ne hp] at hl
  refine ⟨hp, h p s ⟨sel, ls, hsel, hl, hmatch, ?_⟩⟩
  simpa [GoMap.getD, AList.lookup_erase_ne hp] using hns

theorem Complete.deleteServiceFromCache (h : psc.Complete) (svcUID : UID) :
    (psc.deleteServiceFromCache svcUID).Complete := by
  rintro p s ⟨sel, ls, hsel, hl, hmatch, hns⟩
  have hs : s ≠ svcUID := by
    rintro rfl
    simp [PodServiceCache.deleteServiceFromCache] at hsel
  simp only [PodServiceCache.deleteServiceFromCache, has_unlink_snd] at hsel hns ⊢
  rw [AList.lookup_erase_ne hs] at hsel
  refine ⟨h p s ⟨sel, ls, hsel, hl, hmatch, ?_⟩, fun h' => hs h'.2⟩
  simpa [GoMap.getD, AList.lookup_erase_ne hs] using hns

theorem Complete.apply (h : psc.Complete) : ∀ c : Call, (psc.apply c).Complete
  | .setPod pod => h.setPod pod
  | .setService svc => h.setService svc
  | .deletePodFromCache podUID => h.deletePodFromCache podUID
  | .deleteServiceFromCache svcUID => h.deleteServiceFromCache svcUID

theorem Complete.foldl_apply (h : psc.Complete) (calls : List Call) :
    (calls.foldl PodServiceCache.apply psc).Complete := by
  induction calls generalizing psc with
  | nil => exact h
  | cons c calls ih => exact ih (h.apply c)

theorem complete_runCalls (calls : List Call) : (runCalls calls).Complete :=
  complete_newPodServiceCache.foldl_apply calls

/-! ### The relation a history describes -/

/-- The argument of the latest `SetPod` of `p`, unless `p` was deleted after it. -/
def latestPod (calls : List Call) (p : UID) : Option Resource :=
  calls.foldl (fun latest c =>
    match c with
    | .setPod pod => if pod.uid = p then some pod else latest
    | .deletePodFromCache podUID => if podUID = p then none else latest
    | _ => latest) none

theorem latestPod_append_singleton (calls : List Call) (c : Call) (p : UID) :
    latestPod (calls ++ [c]) p =
      match c with
      | .setPod pod => if pod.uid = p then some pod else latestPod calls p
      | .deletePodFromCache podUID => if podUID = p then none else latestPod calls p
      | _ => latestPod calls p := by
  cases c <;> simp [latestPod]

/-- The argument of the latest `SetService` of `s`, unless `s` was deleted after it. -/
def latestService (calls : List Call) (s : UID) : Option Service :=
  calls.foldl (fun latest c =>
    match c with
    | .setService svc => if svc.uid = s then some svc else latest
    | .deleteServiceFromCache svcUID => if svcUID = s then none else latest
    | _ => latest) none

/-- The join the spec describes over a history: both are live, the latest selector of `s` is not
empty and matches the latest labels of `p`, and the two latest namespaces are equal. -/
def historyJoin (calls : List Call) (p s : UID) : Bool :=
  match latestPod calls p, latestService calls s with
  | some pod, some svc =>
      let selector := asSelectorPreValidated svc.selector
      !selector.empty && selector.matches pod.labels && pod.ns == svc.ns
  | _, _ => false

/-- A pod relabelled from `app=foo` to `app=bar` stays joined to the service selecting
`app=foo`, which the history no longer joins it to. -/
theorem setPod_keeps_stale_service :
    let svc : Service := ⟨⟨"s", "web", "ns", none, none⟩, some ((∅ : Labels).insert "app" "foo")⟩
    let pod (app : String) : Resource :=
      ⟨⟨"p", "pod", "ns", some ((∅ : Labels).insert "app" app), none⟩, []⟩
    let calls := [Call.setService svc, .setPod (pod "foo"), .setPod (pod "bar")]
    (runCalls calls).podSvcUIDCache.Has "p" "s" ∧ historyJoin calls "p" "s" = false := by
  decide

end PodServiceCache

end ClusterCache
