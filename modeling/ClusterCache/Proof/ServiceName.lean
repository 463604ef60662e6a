import ClusterCache.GoString
import ClusterCache.Proof.ChangeDetection

/-!
# Resolving a pod's service

`GetServiceNameForPodUID` ranges over the pod's service set, in an order Go leaves unspecified,
collects the cached names of its services, sorts them and returns the first. Sorting leaves the
first name a name no other one comes before, and Go's order is Lean's (`goLess_iff_lt`), so the
result is the byte-wise least name of the pod's services, whatever the order of the range: the
lookup errs exactly when the pod has no service, and otherwise returns the one name that is a
name of one of its services and that no name of its services comes before.
`GetServiceNameForPod` repeats the lookup for the pod object's UID, and so agrees with it.
-/

namespace ClusterCache

namespace PodServiceCache

open GoMap

variable {psc : PodServiceCache} {p : UID} {enum enum' : GoSet UID → List UID}

/-- The first string after `insertionSort` is one of the strings, and no other comes before
it. -/
theorem headD_insertionSort_least {l : List String} (h : l ≠ []) :
    (l.insertionSort (· ≤ ·)).headD "" ∈ l ∧ ∀ m ∈ l, (l.insertionSort (· ≤ ·)).headD "" ≤ m := by
  have hperm := List.perm_insertionSort (· ≤ ·) l
  have hsorted := List.sorted_insertionSort (· ≤ ·) l
  have hne : l.insertionSort (· ≤ ·) ≠ [] := by
    intro h'
    rw [h'] at hperm
    exact h hperm.nil_eq.symm
  obtain ⟨x, xs, hx⟩ := List.exists_cons_of_ne_nil hne
  rw [hx] at hperm hsorted ⊢
  refine ⟨hperm.subset (List.mem_cons_self x xs), fun m hm => ?_⟩
  rcases List.mem_cons.1 (hperm.symm.subset hm) with rfl | hm'
  · exact le_rfl
  · exact List.rel_of_sorted_cons hsorted m hm'

section Enumeration

variable (henum : ∀ set : GoSet UID, (enum set).Perm set.keys)
include henum

/-- The names the lookup collects are those of the pod's services, in any order of the range. -/
theorem getServiceNamesForPodUIDBy_perm :
    (psc.getServiceNamesForPodUIDBy enum p).Perm
      ((psc.serviceUIDsForPodUID p).map fun s => psc.svcUIDNameCache.getD s "") := by
  unfold getServiceNamesForPodUIDBy serviceUIDsForPodUID
  cases psc.podSvcUIDCache.lookup p with
  | none => exact .nil
  | some set => exact (henum set).map _

theorem mem_getServiceNamesForPodUIDBy {n : String} :
    n ∈ psc.getServiceNamesForPodUIDBy enum p ↔
      ∃ s, psc.podSvcUIDCache.Has p s ∧ psc.svcUIDNameCache.getD s "" = n := by
  rw [(getServiceNamesForPodUIDBy_perm henum).mem_iff, List.mem_map]
  simp only [mem_serviceUIDsForPodUID]

theorem getServiceNamesForPodUIDBy_eq_nil :
    psc.getServiceNamesForPodUIDBy enum p = [] ↔ ∀ s, ¬psc.podSvcUIDCache.Has p s := by
  rw [List.eq_nil_iff_forall_not_mem]
  simp only [mem_getServiceNamesForPodUIDBy henum, not_exists, not_and]
  exact ⟨fun h s hs => h _ s hs rfl, fun h _ s hs _ => h s hs⟩

/-- The lookup errs exactly when the pod has no service. -/
theorem getServiceNameForPodUIDBy_eq_error :
    psc.getServiceNameForPodUIDBy enum p = .error "no service matched pod" ↔
      ∀ s, ¬psc.podSvcUIDCache.Has p s := by
  rw [← getServiceNamesForPodUIDBy_eq_nil henum, getServiceNameForPodUIDBy]
  split_ifs with h
  · exact iff_of_true rfl (List.length_eq_zero.1 h)
  · exact iff_of_false (fun h' => nomatch h') (mt List.length_eq_zero.2 h)

/-- Otherwise it returns the byte-wise least name of the pod's services. -/
theorem getServiceNameForPodUIDBy_eq_ok {n : String} :
    psc.getServiceNameForPodUIDBy enum p = .ok n ↔
      (∃ s, psc.podSvcUIDCache.Has p s ∧ psc.svcUIDNameCache.getD s "" = n) ∧
        ∀ s, psc.podSvcUIDCache.Has p s → ¬goLess (psc.svcUIDNameCache.getD s "") n := by
  simp only [goLess_iff_lt, not_lt, ← mem_getServiceNamesForPodUIDBy henum]
  rw [getServiceNameForPodUIDBy]
  split_ifs with h
  · simp [List.length_eq_zero.1 h]
  · obtain ⟨hmem, hle⟩ := headD_insertionSort_least (mt List.length_eq_zero.2 h)
    refine ⟨fun h' => ?_, fun ⟨hn, hleast⟩ => ?_⟩
    · cases h'
      exact ⟨hmem, fun s hs => hle _ ((mem_getServiceNamesForPodUIDBy henum).2 ⟨s, hs, rfl⟩)⟩
    · obtain ⟨s, hs, hname⟩ := (mem_getServiceNamesForPodUIDBy henum).1 hmem
      exact congrArg Except.ok (le_antisymm (hle _ hn) (hname ▸ hleast s hs))

end Enumeration

/-- Two orders of the range give the same result. -/
theorem getServiceNameForPodUIDBy_congr (henum : ∀ set : GoSet UID, (enum set).Perm set.keys)
    (henum' : ∀ set : GoSet UID, (enum' set).Perm set.keys) :
    psc.getServiceNameForPodUIDBy enum p = psc.getServiceNameForPodUIDBy enum' p := by
  have h : (psc.getServiceNamesForPodUIDBy enum p).Perm (psc.getServiceNamesForPodUIDBy enum' p) :=
    (getServiceNamesForPodUIDBy_perm henum).trans (getServiceNamesForPodUIDBy_perm henum').symm
  unfold getServiceNameForPodUIDBy
  dsimp only
  rw [h.length_eq, List.eq_of_perm_of_sorted
    (((List.perm_insertionSort _ _).trans h).trans (List.perm_insertionSort _ _).symm)
    (List.sorted_insertionSort _ _) (List.sorted_insertionSort _ _)]

/-- `GetServiceNameForPod` is the lookup of `GetServiceNameForPodUID` for the pod's UID. -/
theorem getServiceNameForPodBy_eq (pod : Resource) :
    psc.getServiceNameForPodBy enum pod = psc.getServiceNameForPodUIDBy enum pod.uid :=
  rfl

/-- **Deterministic service resolution.** In every state of the join index, and whatever order
Go ranges over the pod's service set in, `GetServiceNameForPodUID` errs exactly when the pod has
no service and otherwise returns the byte-wise least name of its services;
`GetServiceNameForPod` returns the same for the pod object, in any order of its own range. -/
theorem service_resolution_deterministic (henum : ∀ set : GoSet UID, (enum set).Perm set.keys)
    (henum' : ∀ set : GoSet UID, (enum' set).Perm set.keys) (psc : PodServiceCache) (p : UID) :
    (psc.getServiceNameForPodUIDBy enum p = .error "no service matched pod" ↔
        ∀ s, ¬psc.podSvcUIDCache.Has p s) ∧
      (∀ n, psc.getServiceNameForPodUIDBy enum p = .ok n ↔
        (∃ s, psc.podSvcUIDCache.Has p s ∧ psc.svcUIDNameCache.getD s "" = n) ∧
          ∀ s, psc.podSvcUIDCache.Has p s → ¬goLess (psc.svcUIDNameCache.getD s "") n) ∧
      ∀ pod : Resource,
        psc.getServiceNameForPodBy enum' pod = psc.getServiceNameForPodUIDBy enum pod.uid :=
  ⟨getServiceNameForPodUIDBy_eq_error henum, fun _ => getServiceNameForPodUIDBy_eq_ok henum,
    fun pod => (getServiceNameForPodBy_eq pod).trans (getServiceNameForPodUIDBy_congr henum' henum)⟩

/-- A pod joined to two services, ranged over in the order of the map and in the reverse one: the
lookup returns `"web-a"`, the name Go sorts first. -/
theorem service_resolution_deterministic_of_two_services :
    let psc : PodServiceCache :=
      { newPodServiceCache with
        svcUIDNameCache := ((∅ : GoMap UID String).insert "a" "web-a").insert "b" "web-b"
        podSvcUIDCache := (∅ : GoMap UID (GoSet UID)).insert "p"
          (((∅ : GoSet UID).insert "a" true).insert "b" true) }
    psc.getServiceNameForPodUIDBy (fun set => set.keys.reverse) "p" = .ok "web-a" ∧
      psc.getServiceNameForPodBy AList.keys ⟨⟨"p", "pod", "default", none, none⟩, []⟩ =
        psc.getServiceNameForPodUIDBy (fun set => set.keys.reverse) "p" := by
  intro psc
  have h := service_resolution_deterministic (fun set => List.reverse_perm set.keys)
    (fun set => List.Perm.refl set.keys) psc "p"
  refine ⟨(h.2.1 "web-a").2 ⟨⟨"a", by decide, rfl⟩, fun s hs => ?_⟩, h.2.2 _⟩
  have hs' : s = "b" ∨ s = "a" := by
    simpa only [psc, GoMap.has_insert, ↓reduceIte, AList.mem_insert, AList.not_mem_empty,
      or_false] using hs
  rcases hs' with rfl | rfl <;> decide


/-! ### The lookups the cache calls

`updateServicePropForPods` calls `GetServiceNameForPodUID` and `handleAddPod` calls
`GetServiceNameForPod`. Both range over the pod's service set in the order of its entries, one of
the orders above, so the lookups the cache makes resolve as every order does. -/

theorem getServiceNameForPodUID_eq_error :
    psc.getServiceNameForPodUID p = .error "no service matched pod" ↔
      ∀ s, ¬psc.podSvcUIDCache.Has p s := by
  rw [getServiceNameForPodUID_eq_by]
  exact getServiceNameForPodUIDBy_eq_error fun _ => .refl _

theorem getServiceNameForPodUID_eq_ok {n : String} :
    psc.getServiceNameForPodUID p = .ok n ↔
      (∃ s, psc.podSvcUIDCache.Has p s ∧ psc.svcUIDNameCache.getD s "" = n) ∧
        ∀ s, psc.podSvcUIDCache.Has p s → ¬goLess (psc.svcUIDNameCache.getD s "") n := by
  rw [getServiceNameForPodUID_eq_by]
  exact getServiceNameForPodUIDBy_eq_ok fun _ => .refl _

theorem getServiceNameForPod_eq_getServiceNameForPodUID (pod : Resource) :
    psc.getServiceNameForPod pod = psc.getServiceNameForPodUID pod.uid := by
  rw [getServiceNameForPod_eq_by, getServiceNameForPodBy_eq, getServiceNameForPodUID_eq_by]

end PodServiceCache

end ClusterCache
