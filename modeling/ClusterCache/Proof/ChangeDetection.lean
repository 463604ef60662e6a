import Mathlib.Data.List.Sort
import Mathlib.Data.String.Basic
import ClusterCache.Proof.JoinExactness

/-!
# Change detection

`SetPod` and `SetService` return early when the object's fields are deeply equal to the cached
ones. The variant below stores the fields and refreshes every time (the empty-selector return of
`SetService` kept). A refresh of an unchanged object links nothing new: every stored pair that
matches is already in the relation (`Complete`), and no stored selector is empty, so a pod the
early return leaves unstored, with a nil label set, matches no service either.

The two caches differ: the variant stores what the code skips and re-inserts keys the code leaves
in place. `Sim` relates them by what the lookups read: the same relation, deeply equal selectors
and label sets, and the same names and namespaces, a missing entry read as the zero value. It
holds after every sequence of calls, so the two list the same pods for every service, in the
order of their maps, and name the same service for every pod.
-/

namespace ClusterCache

namespace PodServiceCache

open GoMap

variable {psc o a : PodServiceCache} {pod : Resource} {svc : Service} {p s : UID}

/-! ### The variant without the early returns -/

/-- The store step of `SetPod`. -/
def storePod (psc : PodServiceCache) (pod : Resource) : PodServiceCache :=
  { psc with
    podUIDNamespaceCache := psc.podUIDNamespaceCache.insert pod.uid pod.ns
    podUIDLabelCache := psc.podUIDLabelCache.insert pod.uid pod.labels }

/-- The store step of `SetService`. -/
def storeService (psc : PodServiceCache) (svc : Service) : PodServiceCache :=
  { psc with
    svcUIDNamespaceCache := psc.svcUIDNamespaceCache.insert svc.uid svc.ns
    svcUIDSelectorCache :=
      psc.svcUIDSelectorCache.insert svc.uid (asSelectorPreValidated svc.selector)
    svcUIDNameCache := psc.svcUIDNameCache.insert svc.uid svc.name }

/-- `SetPod` without its change test. -/
def setPodAlways (psc : PodServiceCache) (pod : Resource) : PodServiceCache :=
  ((psc.storePod pod).refreshCacheByPod pod).1

/-- `SetService` without its change test; a service with an empty selector is still ignored. -/
def setServiceAlways (psc : PodServiceCache) (svc : Service) : PodServiceCache :=
  if (asSelectorPreValidated svc.selector).empty then psc
  else ((psc.storeService svc).refreshCacheByService svc).1

/-- The variant's cache after one call. -/
def applyAlways (psc : PodServiceCache) : Call → PodServiceCache
  | .setPod pod => psc.setPodAlways pod
  | .setService svc => psc.setServiceAlways svc
  | .deletePodFromCache podUID => psc.deletePodFromCache podUID
  | .deleteServiceFromCache svcUID => psc.deleteServiceFromCache svcUID

/-- The variant's cache after a sequence of calls on `NewPodServiceCache()`. -/
def runCallsAlways (calls : List Call) : PodServiceCache :=
  calls.foldl applyAlways newPodServiceCache

/-- `SetPod` is the variant behind its change test. -/
theorem setPod_eq_setPodAlways :
    psc.setPod pod =
      if (deepEqualNil (psc.podUIDLabelCache.getD pod.uid none) pod.labels &&
          psc.podUIDNamespaceCache.getD pod.uid "" == pod.ns) = true then psc
      else psc.setPodAlways pod :=
  rfl

/-- `SetService` is the store and refresh behind its two early returns. -/
theorem setService_eq_setServiceAlways :
    psc.setService svc =
      if (asSelectorPreValidated svc.selector).empty = true then psc
      else if ((match psc.svcUIDSelectorCache.lookup svc.uid with
          | some cachedSelector => deepEqual cachedSelector (asSelectorPreValidated svc.selector)
          | none => false) &&
        psc.svcUIDNameCache.getD svc.uid "" == svc.name &&
        psc.svcUIDNamespaceCache.getD svc.uid "" == svc.ns) = true then psc
      else ((psc.storeService svc).refreshCacheByService svc).1 :=
  rfl

/-! ### Stored selectors are not empty -/

/-- No stored selector is empty. -/
def NonemptySelectors (psc : PodServiceCache) : Prop :=
  ∀ s selector, psc.svcUIDSelectorCache.lookup s = some selector → selector.empty = false

theorem nonemptySelectors_newPodServiceCache : newPodServiceCache.NonemptySelectors :=
  fun _ _ h => by simp [newPodServiceCache] at h

theorem NonemptySelectors.storeService (h : psc.NonemptySelectors)
    (hempty : (asSelectorPreValidated svc.selector).empty = false) :
    (psc.storeService svc).NonemptySelectors := fun s sel hs => by
  by_cases hsu : s = svc.uid
  · subst hsu
    simp only [PodServiceCache.storeService, AList.lookup_insert, Option.some.injEq] at hs
    rw [← hs, hempty]
  · exact h s sel (by simpa [PodServiceCache.storeService, AList.lookup_insert_ne hsu] using hs)

theorem NonemptySelectors.apply (h : psc.NonemptySelectors) :
    ∀ c : Call, (psc.apply c).NonemptySelectors
  | .setPod pod => fun s sel hs => h s sel (by simpa [PodServiceCache.apply] using hs)
  | .setService svc => by
      rw [PodServiceCache.apply, setService_eq_setServiceAlways]
      split_ifs with hempty
      · exact h
      · exact h
      · intro s sel hs
        rw [refreshCacheByService_frame svcUIDSelectorCache fun _ _ _ => rfl] at hs
        exact h.storeService (by simpa using hempty) s sel hs
  | .deletePodFromCache _ => h
  | .deleteServiceFromCache svcUID => fun s sel hs => by
      by_cases hsu : s = svcUID
      · subst hsu
        simp [PodServiceCache.apply, PodServiceCache.deleteServiceFromCache] at hs
      · exact h s sel (by
          simpa [PodServiceCache.apply, PodServiceCache.deleteServiceFromCache,
            AList.lookup_erase_ne hsu] using hs)

/-! ### Matching as the lookups read it -/

/-- The selector of `s` matches the labels of `p`, a pod without an entry read as having a nil
label set, and the two namespaces agree. -/
def Matches (psc : PodServiceCache) (p s : UID) : Prop :=
  ∃ selector, psc.svcUIDSelectorCache.lookup s = some selector ∧
    selector.matches (psc.podUIDLabelCache.getD p none) = true ∧
    psc.podUIDNamespaceCache.getD p "" = psc.svcUIDNamespaceCache.getD s ""

/-- With no empty selector stored, a pod without an entry matches nothing, so matching as the
lookups read it is matching as stored. -/
theorem storedMatch_iff_matches (hne : psc.NonemptySelectors) :
    psc.StoredMatch p s ↔ psc.Matches p s := by
  constructor
  · rintro ⟨sel, ls, hs, hl, hm, hns⟩
    exact ⟨sel, hs, by rwa [GoMap.getD, hl], hns⟩
  · rintro ⟨sel, hs, hm, hns⟩
    cases hl : psc.podUIDLabelCache.lookup p with
    | none =>
        rw [GoMap.getD, hl, Option.getD_none, Selector.matches_none (hne s sel hs)] at hm
        cases hm
    | some ls => exact ⟨sel, ls, hs, hl, by rwa [GoMap.getD, hl] at hm, hns⟩

/-! ### The simulation -/

/-- The code's cache `o` and the variant's `a` read alike. -/
structure Sim (o a : PodServiceCache) : Prop where
  podSvc : ∀ p s, o.podSvcUIDCache.Has p s ↔ a.podSvcUIDCache.Has p s
  svcPod : ∀ s p, o.svcPodUIDCache.Has s p ↔ a.svcPodUIDCache.Has s p
  selector : ∀ s,
    deepEqualNil (o.svcUIDSelectorCache.lookup s) (a.svcUIDSelectorCache.lookup s) = true
  name : ∀ s, o.svcUIDNameCache.getD s "" = a.svcUIDNameCache.getD s ""
  svcNs : ∀ s, o.svcUIDNamespaceCache.getD s "" = a.svcUIDNamespaceCache.getD s ""
  labels : ∀ p,
    deepEqualNil (o.podUIDLabelCache.getD p none) (a.podUIDLabelCache.getD p none) = true
  podNs : ∀ p, o.podUIDNamespaceCache.getD p "" = a.podUIDNamespaceCache.getD p ""

theorem Sim.refl (psc : PodServiceCache) : Sim psc psc :=
  ⟨fun _ _ => Iff.rfl, fun _ _ => Iff.rfl, fun _ => deepEqualNil_self _, fun _ => rfl,
    fun _ => rfl, fun _ => deepEqualNil_self _, fun _ => rfl⟩

theorem Sim.symm (h : Sim o a) : Sim a o :=
  ⟨fun p s => (h.podSvc p s).symm, fun s p => (h.svcPod s p).symm,
    fun s => (deepEqualNil_comm _ _).trans (h.selector s), fun s => (h.name s).symm,
    fun s => (h.svcNs s).symm, fun p => (deepEqualNil_comm _ _).trans (h.labels p),
    fun p => (h.podNs p).symm⟩

theorem Sim.trans {c : PodServiceCache} (h₁ : Sim o a) (h₂ : Sim a c) : Sim o c :=
  ⟨fun p s => (h₁.podSvc p s).trans (h₂.podSvc p s),
    fun s p => (h₁.svcPod s p).trans (h₂.svcPod s p),
    fun s => deepEqualNil_trans (h₁.selector s) (h₂.selector s),
    fun s => (h₁.name s).trans (h₂.name s), fun s => (h₁.svcNs s).trans (h₂.svcNs s),
    fun p => deepEqualNil_trans (h₁.labels p) (h₂.labels p),
    fun p => (h₁.podNs p).trans (h₂.podNs p)⟩

theorem Sim.nonemptySelectors (h : Sim o a) (hne : o.NonemptySelectors) :
    a.NonemptySelectors := fun s sel hs => by
  have hsel := h.selector s
  rw [hs] at hsel
  cases ho : o.svcUIDSelectorCache.lookup s with
  | none => simp [ho, deepEqualNil] at hsel
  | some sel' =>
      rw [ho] at hsel
      rw [← Selector.empty_congr hsel]
      exact hne s sel' ho

theorem Sim.matches (h : Sim o a) (hm : o.Matches p s) : a.Matches p s := by
  obtain ⟨sel, hsel, hmatch, hns⟩ := hm
  have hs := h.selector s
  rw [hsel] at hs
  cases ha : a.svcUIDSelectorCache.lookup s with
  | none => simp [ha, deepEqualNil] at hs
  | some sel' =>
      rw [ha] at hs
      refine ⟨sel', ha, ?_, ?_⟩
      · rw [← Selector.matches_congr hs (h.labels p)]
        exact hmatch
      · rw [← h.podNs, ← h.svcNs]
        exact hns

/-- Storing the same pod in both keeps the simulation. -/
theorem Sim.storePod (h : Sim o a) (pod : Resource) : Sim (o.storePod pod) (a.storePod pod) :=
  { h with
    labels := fun p => by
      by_cases hp : p = pod.uid
      · subst hp
        simp only [PodServiceCache.storePod, getD_insert_self, deepEqualNil_self]
      · simpa only [PodServiceCache.storePod, getD_insert_of_ne _ _ _ hp] using h.labels p
    podNs := fun p => by
      by_cases hp : p = pod.uid
      · subst hp
        simp only [PodServiceCache.storePod, getD_insert_self]
      · simpa only [PodServiceCache.storePod, getD_insert_of_ne _ _ _ hp] using h.podNs p }

/-- Storing a pod whose cached fields are deeply equal to its own changes no reading. -/
theorem sim_storePod_self
    (hl : deepEqualNil (psc.podUIDLabelCache.getD pod.uid none) pod.labels = true)
    (hns : psc.podUIDNamespaceCache.getD pod.uid "" = pod.ns) : Sim psc (psc.storePod pod) :=
  { Sim.refl psc with
    labels := fun p => by
      by_cases hp : p = pod.uid
      · subst hp
        simpa only [PodServiceCache.storePod, getD_insert_self] using hl
      · simpa only [PodServiceCache.storePod, getD_insert_of_ne _ _ _ hp] using
          deepEqualNil_self _
    podNs := fun p => by
      by_cases hp : p = pod.uid
      · subst hp
        simpa only [PodServiceCache.storePod, getD_insert_self] using hns
      · simp only [PodServiceCache.storePod, getD_insert_of_ne _ _ _ hp] }

/-- Storing the same service in both keeps the simulation. -/
theorem Sim.storeService (h : Sim o a) (svc : Service) :
    Sim (o.storeService svc) (a.storeService svc) :=
  { h with
    selector := fun s => by
      by_cases hs : s = svc.uid
      · subst hs
        simp only [PodServiceCache.storeService, AList.lookup_insert]
        exact deepEqual_self _
      · simpa only [PodServiceCache.storeService, AList.lookup_insert_ne hs] using h.selector s
    name := fun s => by
      by_cases hs : s = svc.uid
      · subst hs
        simp only [PodServiceCache.storeService, getD_insert_self]
      · simpa only [PodServiceCache.storeService, getD_insert_of_ne _ _ _ hs] using h.name s
    svcNs := fun s => by
      by_cases hs : s = svc.uid
      · subst hs
        simp only [PodServiceCache.storeService, getD_insert_self]
      · simpa only [PodServiceCache.storeService, getD_insert_of_ne _ _ _ hs] using h.svcNs s }

/-- Storing a service whose cached fields are deeply equal to its own changes no reading. -/
theorem sim_storeService_self {selector : Selector}
    (hsel : psc.svcUIDSelectorCache.lookup svc.uid = some selector)
    (hdeep : deepEqual selector (asSelectorPreValidated svc.selector) = true)
    (hname : psc.svcUIDNameCache.getD svc.uid "" = svc.name)
    (hns : psc.svcUIDNamespaceCache.getD svc.uid "" = svc.ns) :
    Sim psc (psc.storeService svc) :=
  { Sim.refl psc with
    selector := fun s => by
      by_cases hs : s = svc.uid
      · subst hs
        simpa only [PodServiceCache.storeService, AList.lookup_insert, hsel] using hdeep
      · simpa only [PodServiceCache.storeService, AList.lookup_insert_ne hs] using
          deepEqualNil_self _
    name := fun s => by
      by_cases hs : s = svc.uid
      · subst hs
        simpa only [PodServiceCache.storeService, getD_insert_self] using hname
      · simp only [PodServiceCache.storeService, getD_insert_of_ne _ _ _ hs]
    svcNs := fun s => by
      by_cases hs : s = svc.uid
      · subst hs
        simpa only [PodServiceCache.storeService, getD_insert_self] using hns
      · simp only [PodServiceCache.storeService, getD_insert_of_ne _ _ _ hs] }

/-- Linking pairs changes no field map. -/
theorem Sim.linkAll_data (h : Sim o a) {P Q : List (UID × UID)}
    (hpodSvc : ∀ p s, (o.linkAll P).podSvcUIDCache.Has p s ↔ (a.linkAll Q).podSvcUIDCache.Has p s)
    (hsvcPod : ∀ s p, (o.linkAll P).svcPodUIDCache.Has s p ↔ (a.linkAll Q).svcPodUIDCache.Has s p) :
    Sim (o.linkAll P) (a.linkAll Q) := by
  refine ⟨hpodSvc, hsvcPod, ?_, ?_, ?_, ?_, ?_⟩ <;>
    simp only [linkAll_svcUIDSelectorCache, linkAll_svcUIDNameCache, linkAll_svcUIDNamespaceCache,
      linkAll_podUIDLabelCache, linkAll_podUIDNamespaceCache]
  exacts [h.selector, h.name, h.svcNs, h.labels, h.podNs]

/-- Linking equal sets of pairs keeps the simulation. -/
theorem Sim.linkAll (h : Sim o a) {P Q : List (UID × UID)}
    (hPQ : ∀ p s, (p, s) ∈ P ↔ (p, s) ∈ Q) : Sim (o.linkAll P) (a.linkAll Q) :=
  h.linkAll_data (fun p s => by simp only [has_podSvc_linkAll, h.podSvc, hPQ])
    fun s p => by simp only [has_svcPod_linkAll, h.svcPod, hPQ]

/-- Linking pairs the code already has keeps the simulation. -/
theorem Sim.linkAll_right (h : Sim o a) {Q : List (UID × UID)}
    (hQ : ∀ p s, (p, s) ∈ Q → o.podSvcUIDCache.Has p s ∧ o.svcPodUIDCache.Has s p) :
    Sim o (a.linkAll Q) := by
  have hnil : o.linkAll [] = o := rfl
  rw [← hnil]
  refine h.linkAll_data (fun p s => ?_) fun s p => ?_
  · simp only [has_podSvc_linkAll, List.not_mem_nil, or_false, ← h.podSvc]
    exact ⟨.inl, fun h' => h'.elim id fun hq => (hQ p s hq).1⟩
  · simp only [has_svcPod_linkAll, List.not_mem_nil, or_false, ← h.svcPod]
    exact ⟨.inl, fun h' => h'.elim id fun hq => (hQ p s hq).2⟩

theorem Sim.refreshCacheByPod (h : Sim o a) (hne : o.NonemptySelectors)
    (hns : o.podUIDNamespaceCache.getD pod.uid "" = pod.ns) :
    Sim (o.refreshCacheByPod pod).1 (a.refreshCacheByPod pod).1 := by
  obtain ⟨P, hP, hPm⟩ := refreshCacheByPod_fst hns
  obtain ⟨Q, hQ, hQm⟩ := refreshCacheByPod_fst ((h.podNs pod.uid).symm.trans hns)
  rw [hP, hQ]
  refine h.linkAll fun p s => ?_
  rw [hPm, hQm, storedMatch_iff_matches hne, storedMatch_iff_matches (h.nonemptySelectors hne)]
  exact and_congr_right fun _ => ⟨h.matches, h.symm.matches⟩

theorem Sim.refreshCacheByService (h : Sim o a) (hne : o.NonemptySelectors)
    (hns : o.svcUIDNamespaceCache.getD svc.uid "" = svc.ns) :
    Sim (o.refreshCacheByService svc).1 (a.refreshCacheByService svc).1 := by
  obtain ⟨P, hP, hPm⟩ := refreshCacheByService_fst hns
  obtain ⟨Q, hQ, hQm⟩ := refreshCacheByService_fst ((h.svcNs svc.uid).symm.trans hns)
  rw [hP, hQ]
  refine h.linkAll fun p s => ?_
  rw [hPm, hQm, storedMatch_iff_matches hne, storedMatch_iff_matches (h.nonemptySelectors hne)]
  exact and_congr_right fun _ => ⟨h.matches, h.symm.matches⟩

/-- A refresh of `a` that the code skipped links only pairs the code has, when its relation is
complete and mirrored. -/
theorem Sim.linkAll_stored (h : Sim o a) (hi : o.Inv) (hc : o.Complete)
    (hne : o.NonemptySelectors) {Q : List (UID × UID)}
    (hQ : ∀ p s, (p, s) ∈ Q → a.StoredMatch p s) : Sim o (a.linkAll Q) :=
  h.linkAll_right fun p s hq => by
    have hm := (storedMatch_iff_matches (h.nonemptySelectors hne)).1 (hQ p s hq)
    have hp := hc p s ((storedMatch_iff_matches hne).2 (h.symm.matches hm))
    exact ⟨hp, (hi.symm p s).1 hp⟩

theorem Sim.setPod (h : Sim o a) (hi : o.Inv) (hc : o.Complete) (hne : o.NonemptySelectors)
    (pod : Resource) : Sim (o.setPod pod) (a.setPodAlways pod) := by
  rw [setPod_eq_setPodAlways]
  split_ifs with hfast
  · simp only [Bool.and_eq_true, beq_iff_eq] at hfast
    have hns : (a.storePod pod).podUIDNamespaceCache.getD pod.uid "" = pod.ns :=
      getD_insert_self _ _ _ _
    obtain ⟨Q, hQ, hQm⟩ := refreshCacheByPod_fst hns
    unfold setPodAlways
    rw [hQ]
    exact ((sim_storePod_self hfast.1 hfast.2).trans (h.storePod pod)).linkAll_stored hi hc hne
      fun p s hq => ((hQm p s).1 hq).2
  · exact (h.storePod pod).refreshCacheByPod hne (getD_insert_self _ _ _ _)

theorem Sim.setService (h : Sim o a) (hi : o.Inv) (hc : o.Complete)
    (hne : o.NonemptySelectors) (svc : Service) :
    Sim (o.setService svc) (a.setServiceAlways svc) := by
  rw [setService_eq_setServiceAlways]
  unfold setServiceAlways
  split_ifs with hempty hfast
  · exact h
  · obtain ⟨sel, hsel, hdeep⟩ : ∃ sel, o.svcUIDSelectorCache.lookup svc.uid = some sel ∧
        deepEqual sel (asSelectorPreValidated svc.selector) = true := by
      cases hs : o.svcUIDSelectorCache.lookup svc.uid with
      | none => simp [hs] at hfast
      | some sel => exact ⟨sel, rfl, by simp only [hs, Bool.and_eq_true] at hfast; exact hfast.1.1⟩
    simp only [hsel, Bool.and_eq_true, beq_iff_eq] at hfast
    have hns : (a.storeService svc).svcUIDNamespaceCache.getD svc.uid "" = svc.ns :=
      getD_insert_self _ _ _ _
    obtain ⟨Q, hQ, hQm⟩ := refreshCacheByService_fst hns
    rw [hQ]
    exact ((sim_storeService_self hsel hdeep hfast.1.2 hfast.2).trans
      (h.storeService svc)).linkAll_stored hi hc hne fun p s hq => ((hQm p s).1 hq).2
  · exact (h.storeService svc).refreshCacheByService (hne.storeService (by simpa using hempty))
      (getD_insert_self _ _ _ _)

theorem Sim.deletePodFromCache (h : Sim o a) (podUID : UID) :
    Sim (o.deletePodFromCache podUID) (a.deletePodFromCache podUID) :=
  { h with
    podSvc := fun p s => by
      simp only [PodServiceCache.deletePodFromCache, has_unlink_fst, h.podSvc]
    svcPod := fun s p => by
      simp only [PodServiceCache.deletePodFromCache, has_unlink_snd, h.svcPod, h.podSvc]
    labels := fun p => by
      simp only [PodServiceCache.deletePodFromCache, getD_erase]
      split_ifs
      · rfl
      · exact h.labels p
    podNs := fun p => by
      simp only [PodServiceCache.deletePodFromCache, getD_erase]
      split_ifs
      · rfl
      · exact h.podNs p }

theorem Sim.deleteServiceFromCache (h : Sim o a) (svcUID : UID) :
    Sim (o.deleteServiceFromCache svcUID) (a.deleteServiceFromCache svcUID) :=
  { h with
    podSvc := fun p s => by
      simp only [PodServiceCache.deleteServiceFromCache, has_unlink_snd, h.svcPod, h.podSvc]
    svcPod := fun s p => by
      simp only [PodServiceCache.deleteServiceFromCache, has_unlink_fst, h.svcPod]
    selector := fun s => by
      by_cases hs : s = svcUID
      · subst hs
        simp [PodServiceCache.deleteServiceFromCache, deepEqualNil]
      · simpa only [PodServiceCache.deleteServiceFromCache, AList.lookup_erase_ne hs] using
          h.selector s
    name := fun s => by
      simp only [PodServiceCache.deleteServiceFromCache, getD_erase]
      split_ifs
      · rfl
      · exact h.name s
    svcNs := fun s => by
      simp only [PodServiceCache.deleteServiceFromCache, getD_erase]
      split_ifs
      · rfl
      · exact h.svcNs s }

theorem Sim.apply (h : Sim o a) (hi : o.Inv) (hc : o.Complete) (hne : o.NonemptySelectors) :
    ∀ c : Call, Sim (o.apply c) (a.applyAlways c)
  | .setPod pod => h.setPod hi hc hne pod
  | .setService svc => h.setService hi hc hne svc
  | .deletePodFromCache podUID => h.deletePodFromCache podUID
  | .deleteServiceFromCache svcUID => h.deleteServiceFromCache svcUID

theorem Sim.foldl (h : Sim o a) (hi : o.Inv) (hc : o.Complete) (hne : o.NonemptySelectors)
    (calls : List Call) : Sim (calls.foldl PodServiceCache.apply o) (calls.foldl applyAlways a) := by
  induction calls generalizing o a with
  | nil => exact h
  | cons c cs ih => exact ih (h.apply hi hc hne c) (hi.apply c) (hc.apply c) (hne.apply c)

theorem sim_runCalls (calls : List Call) : Sim (runCalls calls) (runCallsAlways calls) :=
  (Sim.refl _).foldl inv_newPodServiceCache complete_newPodServiceCache
    nonemptySelectors_newPodServiceCache calls

/-! ### What the lookups return -/

theorem nodup_getPodUIDsForServiceUID (psc : PodServiceCache) (s : UID) :
    (psc.getPodUIDsForServiceUID s).Nodup := by
  unfold getPodUIDsForServiceUID
  split
  · exact AList.keys_nodup _
  · exact List.nodup_nil

theorem Sim.getPodUIDsForServiceUID (h : Sim o a) (s : UID) :
    (o.getPodUIDsForServiceUID s).Perm (a.getPodUIDsForServiceUID s) :=
  (List.perm_ext_iff_of_nodup (nodup_getPodUIDsForServiceUID o s)
    (nodup_getPodUIDsForServiceUID a s)).2 fun p => by
      rw [mem_getPodUIDsForServiceUID, mem_getPodUIDsForServiceUID]
      exact h.svcPod s p

/-- The UIDs of a pod's services, in the order `getServiceNamesForPodUID` reads them. -/
def serviceUIDsForPodUID (psc : PodServiceCache) (podUID : UID) : List UID :=
  match psc.podSvcUIDCache.lookup podUID with
  | some serviceUIDs => serviceUIDs.keys
  | none => []

theorem getServiceNamesForPodUID_eq :
    psc.getServiceNamesForPodUID p =
      (psc.serviceUIDsForPodUID p).map fun s => psc.svcUIDNameCache.getD s "" := by
  unfold getServiceNamesForPodUID serviceUIDsForPodUID
  cases psc.podSvcUIDCache.lookup p <;> rfl

theorem mem_serviceUIDsForPodUID : s ∈ psc.serviceUIDsForPodUID p ↔ psc.podSvcUIDCache.Has p s := by
  unfold serviceUIDsForPodUID GoMap.Has
  cases psc.podSvcUIDCache.lookup p <;> simp [AList.mem_keys]

theorem nodup_serviceUIDsForPodUID (psc : PodServiceCache) (p : UID) :
    (psc.serviceUIDsForPodUID p).Nodup := by
  unfold serviceUIDsForPodUID
  split
  · exact AList.keys_nodup _
  · exact List.nodup_nil

theorem Sim.getServiceNamesForPodUID (h : Sim o a) (p : UID) :
    (o.getServiceNamesForPodUID p).Perm (a.getServiceNamesForPodUID p) := by
  have hname : (fun s => o.svcUIDNameCache.getD s "") = fun s => a.svcUIDNameCache.getD s "" :=
    funext h.name
  rw [getServiceNamesForPodUID_eq, getServiceNamesForPodUID_eq, hname]
  refine List.Perm.map _ ((List.perm_ext_iff_of_nodup (nodup_serviceUIDsForPodUID o p)
    (nodup_serviceUIDsForPodUID a p)).2 fun s => ?_)
  rw [mem_serviceUIDsForPodUID, mem_serviceUIDsForPodUID]
  exact h.podSvc p s

/-- `GetServiceNameForPodUID` reads the pod's service names up to their order only, since it
sorts them. -/
theorem getServiceNameForPodUID_eq_of_perm
    (h : (o.getServiceNamesForPodUID p).Perm (a.getServiceNamesForPodUID p)) :
    o.getServiceNameForPodUID p = a.getServiceNameForPodUID p := by
  unfold getServiceNameForPodUID
  dsimp only
  rw [h.length_eq, List.eq_of_perm_of_sorted
    (((List.perm_insertionSort _ _).trans h).trans (List.perm_insertionSort _ _).symm)
    (List.sorted_insertionSort _ _) (List.sorted_insertionSort _ _)]

/-- The early returns of `SetPod` and `SetService` are an optimisation: after every sequence of
calls, the code and the variant that always stores and refreshes have the same relation, list
the same pods for every service (in the order of their maps, which Go leaves unspecified), and
name the same service for every pod. -/
theorem change_detection_is_an_optimisation (calls : List Call) :
    let o := runCalls calls
    let a := runCallsAlways calls
    (∀ p s, o.podSvcUIDCache.Has p s ↔ a.podSvcUIDCache.Has p s) ∧
      (∀ s p, o.svcPodUIDCache.Has s p ↔ a.svcPodUIDCache.Has s p) ∧
      (∀ s, (o.getPodUIDsForServiceUID s).Perm (a.getPodUIDsForServiceUID s)) ∧
      ∀ p, o.getServiceNameForPodUID p = a.getServiceNameForPodUID p := by
  intro o a
  have h : Sim o a := sim_runCalls calls
  exact ⟨h.podSvc, h.svcPod, h.getPodUIDsForServiceUID,
    fun p => getServiceNameForPodUID_eq_of_perm (h.getServiceNamesForPodUID p)⟩

end PodServiceCache

end ClusterCache
