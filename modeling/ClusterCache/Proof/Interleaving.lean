import ClusterCache.Proof.History
import ClusterCache.Proof.LatestAdds
import ClusterCache.Proof.ServiceProperty

/-!
# The order of other objects' events does not matter

Each informer hands the cache the events of its own objects in order, but the informers run side
by side, so the events of different objects reach the cache interleaved in any order. What the
cache holds under a UID depends on that UID's own events alone: its kind, its samples, and its
record apart from the service property, the same under every interleaving.

The service property of a pod is the exception, because it reads the join index, whose pairs
remember the order in which a pod and a service were set. While no relabelling changes whether
the pod matches a service, the index joins exactly the pairs whose latest versions match, and the
latest version of a pod or a service depends on its own events only; so then the service
property is the same under every interleaving too.

Each fact is one fold lemma, `foldl_eventsOf`: a view of the state that no event of another key
moves, and that each step moves from the view alone, reads the same after the events of its key
alone.
-/

namespace ClusterCache

namespace DatapointCache

open GoMap PodServiceCache

/-- The events of `u`, in their order. -/
def eventsOf (u : UID) (events : List Event) : List Event :=
  events.filter fun e => e.key = some u

theorem mem_eventsOf {u : UID} {e : Event} {events : List Event} :
    e ∈ eventsOf u events ↔ e ∈ events ∧ e.key = some u := by
  simp [eventsOf]

theorem key_add_of_uidKind {obj : Object} {u : UID} {k : String} (h : obj.uidKind = some (u, k)) :
    (Event.add obj).key = some u := by
  simp [Event.key, keyForObject_of_uidKind h, Except.toOption]

/-! ### Folds that read one key -/

/-- A fold whose view `proj` each step moves from the view alone reads the same from states with
the same view. -/
theorem foldl_proj_congr {α β γ : Type} (step : α → γ → α) (proj : α → β)
    (hcongr : ∀ a a' c, proj a = proj a' → proj (step a c) = proj (step a' c)) (l : List γ)
    {a a' : α} (h : proj a = proj a') : proj (l.foldl step a) = proj (l.foldl step a') := by
  induction l generalizing a a' with
  | nil => exact h
  | cons c cs ih => exact ih (hcongr a a' c h)

/-- A fold of steps none of which moves the view leaves it. -/
theorem foldl_proj_of_forall {α β γ : Type} (step : α → γ → α) (proj : α → β) {l : List γ}
    (hkeep : ∀ a c, c ∈ l → proj (step a c) = proj a) (a : α) : proj (l.foldl step a) = proj a := by
  induction l generalizing a with
  | nil => rfl
  | cons c cs ih =>
      exact (ih (fun a c' hc' => hkeep a c' (List.mem_cons_of_mem _ hc')) _).trans
        (hkeep a c (List.mem_cons_self _ _))

section Projection

variable {α β : Type} (step : α → Event → α) (proj : α → β)
  (hcongr : ∀ a a' e, proj a = proj a' → proj (step a e) = proj (step a' e))
include hcongr

/-- A view no event of another key moves reads the same after the events of its key alone. -/
theorem foldl_eventsOf {u : UID} (hother : ∀ a e, e.key ≠ some u → proj (step a e) = proj a)
    (events : List Event) (a : α) :
    proj (events.foldl step a) = proj ((eventsOf u events).foldl step a) := by
  induction events generalizing a with
  | nil => rfl
  | cons e es ih =>
      by_cases he : e.key = some u
      · simpa [eventsOf, he] using ih (step a e)
      · rw [List.foldl_cons, ih,
          foldl_proj_congr step proj hcongr _ (hother a e he)]
        simp [eventsOf, he]

end Projection

/-! ### Kinds, samples and records -/

variable {u p s : UID} {e : Event} {events es₁ es₂ : List Event}

theorem lookup_kinds_of_key_ne (he : e.key ≠ some u) (kinds : GoMap UID String) :
    (e.kinds kinds).lookup u = kinds.lookup u := by
  cases e with
  | add obj =>
      simp only [Event.kinds]
      split
      · next v k hv =>
          have hvu : v ≠ u := fun h => he (h ▸ key_add_of_uidKind hv)
          exact AList.lookup_insert_ne (Ne.symm hvu)
      · rfl
  | delete obj =>
      simp only [Event.kinds]
      split
      · next key hkey =>
          have hku : key ≠ u := fun h => he (by simp [Event.key, hkey, h, Except.toOption])
          exact AList.lookup_erase_ne (Ne.symm hku)
      · rfl

theorem lookup_kinds_congr {kinds kinds' : GoMap UID String}
    (h : kinds.lookup u = kinds'.lookup u) : (e.kinds kinds).lookup u = (e.kinds kinds').lookup u := by
  cases e with
  | add obj =>
      simp only [Event.kinds]
      split
      · next v k _ =>
          rcases eq_or_ne u v with rfl | hv
          · simp
          · rwa [AList.lookup_insert_ne hv, AList.lookup_insert_ne hv]
      · exact h
  | delete obj =>
      simp only [Event.kinds]
      split
      · next key _ =>
          rcases eq_or_ne u key with rfl | hk
          · simp
          · rwa [AList.lookup_erase_ne hk, AList.lookup_erase_ne hk]
      · exact h

theorem lookup_history_eventsOf (events : List Event) (u : UID) :
    (history events).1.lookup u = (history (eventsOf u events)).1.lookup u :=
  foldl_eventsOf historyStep (fun acc => acc.1.lookup u) (fun _ _ _ h => lookup_kinds_congr h)
    (fun acc _ he => lookup_kinds_of_key_ne he acc.1) events (∅, [])

theorem latest_of_key_ne {α : Type} {derive : Object → Option α} (he : e.key ≠ some u)
    (latest : Option α) : Event.latest derive u latest e = latest := by
  cases e <;> simp only [Event.latest] <;> split <;> try rfl
  all_goals
    next key hkey =>
      rw [if_neg fun h => he (by simp [Event.key, hkey, h, Except.toOption])]

theorem latestSamples_eventsOf (dv : Derivations) (b : Bool) (events : List Event) (u : UID) :
    latestSamples dv b events u = latestSamples dv b (eventsOf u events) u :=
  foldl_eventsOf _ id (fun _ _ _ h => h ▸ rfl) (fun _ _ he => latest_of_key_ne he _) events none

theorem latestRecord_eventsOf (dv : Derivations) (b : Bool) (events : List Event) (u : UID) :
    latestRecord dv b events u = latestRecord dv b (eventsOf u events) u :=
  foldl_eventsOf _ id (fun _ _ _ h => h ▸ rfl) (fun _ _ he => latest_of_key_ne he _) events none

variable {dv : Derivations} {links : List PropertyLink} {b : Bool} {σ : DatapointCache}

theorem lookup_uidKindCache_eventsOf (hr : (newDatapointCache b).run dv links events = some σ)
    (u : UID) : σ.uidKindCache.lookup u = (history (eventsOf u events)).1.lookup u := by
  rw [((followsHistory_newDatapointCache b).run hr).1]
  exact lookup_history_eventsOf events u

theorem lookup_dpCache_eventsOf (hr : (newDatapointCache b).run dv links events = some σ)
    (u : UID) : σ.dpCache.lookup u = latestSamples dv b (eventsOf u events) u := by
  rw [lookup_dpCache_run hr u, ← latestSamples_eventsOf]
  rfl

theorem lookup_dimPropCache_eventsOf
    (hr : (newDatapointCache b).run dv propertyLinks events = some σ) (u : UID) :
    RecordFollows (latestRecord dv b (eventsOf u events) u) (σ.dimPropCache.lookup u) := by
  rw [← latestRecord_eventsOf]
  exact RecordFollows.run hr .none

theorem SameButService.symm {d d' : DimProperties} (h : SameButService d d') :
    SameButService d' d :=
  ⟨h.1.symm, h.2.1.symm, fun name hname => (h.2.2 name hname).symm⟩

/-- Two records that follow one latest record are the same up to the service property. -/
theorem RecordFollows.symm_trans {latest r r' : Option DimProperties}
    (h : RecordFollows latest r) (h' : RecordFollows latest r') : Option.Rel SameButService r r' := by
  cases h with
  | none => cases h'; exact .none
  | some hd => cases h' with | some hd' => exact .some (hd.symm.trans hd')

/-- **The contents do not depend on the interleaving.** Any two runs from a new cache that
return, of events that are the same for each UID and only interleaved differently, leave every
UID with the same kind, the same samples, and records that differ at most in their service
property. -/
theorem contents_independent_of_interleaving (dv : Derivations) (b : Bool) (es₁ es₂ : List Event)
    (hsame : ∀ u, eventsOf u es₁ = eventsOf u es₂) {σ₁ σ₂ : DatapointCache}
    (h₁ : (newDatapointCache b).run dv propertyLinks es₁ = some σ₁)
    (h₂ : (newDatapointCache b).run dv propertyLinks es₂ = some σ₂) (u : UID) :
    σ₁.uidKindCache.lookup u = σ₂.uidKindCache.lookup u ∧
      σ₁.dpCache.lookup u = σ₂.dpCache.lookup u ∧
      Option.Rel SameButService (σ₁.dimPropCache.lookup u) (σ₂.dimPropCache.lookup u) := by
  refine ⟨?_, ?_, ?_⟩
  · rw [lookup_uidKindCache_eventsOf h₁, lookup_uidKindCache_eventsOf h₂, hsame]
  · rw [lookup_dpCache_eventsOf h₁, lookup_dpCache_eventsOf h₂, hsame]
  · have hr₁ := lookup_dimPropCache_eventsOf h₁ u
    rw [hsame] at hr₁
    exact hr₁.symm_trans (lookup_dimPropCache_eventsOf h₂ u)

theorem contents_independent_of_interleaving_of_swapped_events :
    let pod : Resource := ⟨⟨"p", "web-1", "ns", none, none⟩, []⟩
    let ns : Resource := ⟨⟨"n", "ns", "", none, none⟩, []⟩
    let es₁ := [Event.add (.pod pod), .add (.namespace' ns)]
    let es₂ := [Event.add (.namespace' ns), .add (.pod pod)]
    (∀ u, eventsOf u es₁ = eventsOf u es₂) ∧
      ∃ σ₁ σ₂, (newDatapointCache false).run podRecordsOnly propertyLinks es₁ = some σ₁ ∧
        (newDatapointCache false).run podRecordsOnly propertyLinks es₂ = some σ₂ ∧
        σ₁.uidKindCache.lookup "p" = σ₂.uidKindCache.lookup "p" ∧
        σ₁.dpCache.lookup "p" = σ₂.dpCache.lookup "p" ∧
        Option.Rel SameButService (σ₁.dimPropCache.lookup "p") (σ₂.dimPropCache.lookup "p") := by
  intro pod ns es₁ es₂
  have hsame : ∀ u, eventsOf u es₁ = eventsOf u es₂ := fun u => by
    simp only [es₁, es₂, eventsOf, List.filter_cons, List.filter_nil]
    rcases eq_or_ne "p" u with rfl | hp
    · simp [pod, ns, Event.key, keyForObject, Except.toOption]
    · simp [pod, ns, Event.key, keyForObject, Except.toOption, hp]
  have h₁ := Option.eq_some_of_isSome
    (o := (newDatapointCache false).run podRecordsOnly propertyLinks es₁) (by decide)
  have h₂ := Option.eq_some_of_isSome
    (o := (newDatapointCache false).run podRecordsOnly propertyLinks es₂) (by decide)
  exact ⟨hsame, _, _, h₁, h₂, contents_independent_of_interleaving _ _ _ _ hsame h₁ h₂ "p"⟩

/-! ### Interleavings of the same events

An interleaving keeps each UID's events, so every add of an object is in both or in neither, and
one kind per UID and stable matches carry over from one to the other. -/

theorem mem_of_eventsOf_eq (hsame : ∀ u, eventsOf u es₁ = eventsOf u es₂) (he : e.key = some u)
    (h₂ : e ∈ es₂) : e ∈ es₁ := by
  have h : e ∈ eventsOf u es₁ := by
    rw [hsame u]
    exact mem_eventsOf.2 ⟨h₂, he⟩
  exact (mem_eventsOf.1 h).1

theorem oneKindPerUID_of_eventsOf (hsame : ∀ u, eventsOf u es₁ = eventsOf u es₂)
    (h : OneKindPerUID es₁) : OneKindPerUID es₂ :=
  let ⟨kindOf, hk⟩ := h
  ⟨kindOf, fun obj hobj u k hu => hk obj (mem_of_eventsOf_eq hsame (key_add_of_uidKind hu) hobj) u k hu⟩

/-- A delete makes only deletes of its own key. -/
theorem mem_joinCalls_delete {obj : Object} {kinds : GoMap UID String} {c : Call}
    (hc : c ∈ (Event.delete obj).joinCalls kinds) :
    ∃ key, keyForObject obj = .ok key ∧
      (c = .deletePodFromCache key ∨ c = .deleteServiceFromCache key) := by
  simp only [Event.joinCalls] at hc
  split at hc
  · next key hkey =>
      unfold deleteCalls at hc
      split_ifs at hc <;> simp only [List.mem_singleton, List.not_mem_nil] at hc <;>
        first | exact ⟨key, hkey, .inl hc⟩ | exact ⟨key, hkey, .inr hc⟩
  · simp at hc

/-- The calls a history makes that an add alone makes are in it exactly when the add is. -/
theorem mem_foldl_historyStep {c : Call} {o : Object}
    (hc : ∀ (e : Event) kinds, c ∈ e.joinCalls kinds ↔ e = .add o) (events : List Event)
    (acc : GoMap UID String × List Call) :
    c ∈ (events.foldl historyStep acc).2 ↔ c ∈ acc.2 ∨ .add o ∈ events := by
  induction events generalizing acc with
  | nil => simp
  | cons e es ih =>
      rw [List.foldl_cons, ih]
      simp only [historyStep, List.mem_append, hc, List.mem_cons]
      rw [or_assoc, eq_comm (a := e)]

theorem setPod_mem_history {pod : Resource} :
    Call.setPod pod ∈ (history events).2 ↔ Event.add (.pod pod) ∈ events := by
  refine (mem_foldl_historyStep (o := .pod pod) (fun e kinds => ?_) events (∅, [])).trans
    (by simp)
  cases e with
  | add obj => cases obj <;> simp [Event.joinCalls, eq_comm]
  | delete obj =>
      refine iff_of_false (fun hc => ?_) nofun
      obtain ⟨_, _, h | h⟩ := mem_joinCalls_delete hc <;> cases h

theorem setService_mem_history {svc : Service} :
    Call.setService svc ∈ (history events).2 ↔ Event.add (.service svc) ∈ events := by
  refine (mem_foldl_historyStep (o := .service svc) (fun e kinds => ?_) events (∅, [])).trans
    (by simp)
  cases e with
  | add obj => cases obj <;> simp [Event.joinCalls, eq_comm]
  | delete obj =>
      refine iff_of_false (fun hc => ?_) nofun
      obtain ⟨_, _, h | h⟩ := mem_joinCalls_delete hc <;> cases h

theorem matchStable_of_eventsOf (hsame : ∀ u, eventsOf u es₁ = eventsOf u es₂)
    (h : MatchStable (history es₁).2 p s) : MatchStable (history es₂).2 p s := by
  obtain ⟨m, hm⟩ := h
  refine ⟨m, fun pod svc hpod hpu hsvc hsu he => hm pod svc ?_ hpu ?_ hsu he⟩
  · rw [setPod_mem_history] at hpod ⊢
    exact mem_of_eventsOf_eq hsame
      (key_add_of_uidKind (u := p) (k := "Pod") (by simp [Object.uidKind, hpu])) hpod
  · rw [setService_mem_history] at hsvc ⊢
    exact mem_of_eventsOf_eq hsame
      (key_add_of_uidKind (u := s) (k := "Service") (by simp [Object.uidKind, hsu])) hsvc

/-! ### The pair histories

A pair history's pod moves only with the calls on the pod's key, and its service only with the
calls on the service's key; and the calls an event makes read the kind cached under its own key.
So, carried along with the kinds, each of the two reads the events of its own key alone. -/

/-- One event of a history, carrying the kinds and the pair history of `(p, s)` its calls move. -/
def pairStep (p s : UID) (x : GoMap UID String × PairHistory) (e : Event) :
    GoMap UID String × PairHistory :=
  (e.kinds x.1, (e.joinCalls x.1).foldl (PairHistory.step p s) x.2)

theorem foldl_pairStep (events : List Event) (acc : GoMap UID String × List Call)
    (h : PairHistory) :
    events.foldl (pairStep p s) (acc.1, acc.2.foldl (PairHistory.step p s) h) =
      ((events.foldl historyStep acc).1,
        (events.foldl historyStep acc).2.foldl (PairHistory.step p s) h) := by
  induction events generalizing acc with
  | nil => rfl
  | cons e es ih =>
      rw [List.foldl_cons, List.foldl_cons, ← ih]
      simp only [pairStep, historyStep, List.foldl_append]

theorem pairHistory_history (events : List Event) (p s : UID) :
    pairHistory (history events).2 p s = (events.foldl (pairStep p s) (∅, ⟨none, none, false⟩)).2 :=
  (congrArg Prod.snd (foldl_pairStep (p := p) (s := s) events (∅, []) ⟨none, none, false⟩)).symm

theorem joinCalls_congr {kinds kinds' : GoMap UID String}
    (hk : ∀ key, e.key = some key → kinds.lookup key = kinds'.lookup key) :
    e.joinCalls kinds = e.joinCalls kinds' := by
  cases e with
  | add obj => cases obj <;> rfl
  | delete obj =>
      simp only [Event.joinCalls]
      split
      · next key hkey => simp only [deleteCalls, hk key (by simp [Event.key, hkey, Except.toOption])]
      · rfl

/-- The UID a call on the join index is about. -/
def callKey : Call → UID
  | .setPod pod => pod.uid
  | .setService svc => svc.uid
  | .deletePodFromCache podUID => podUID
  | .deleteServiceFromCache svcUID => svcUID

/-- An event makes calls about its own key only. -/
theorem key_of_mem_joinCalls {c : Call} {kinds : GoMap UID String} (hc : c ∈ e.joinCalls kinds) :
    e.key = some (callKey c) := by
  cases e with
  | add obj =>
      cases obj <;> simp only [Event.joinCalls, List.mem_singleton, List.not_mem_nil] at hc <;>
        subst hc <;> rfl
  | delete obj =>
      obtain ⟨key, hkey, rfl | rfl⟩ := mem_joinCalls_delete hc <;>
        simp [Event.key, hkey, callKey, Except.toOption]

/-- A view of the pair history that each call moves from the view alone, and that no call about
another key than `u` moves, reads the events of `u` alone. -/
theorem view_pairHistory_eventsOf {β : Type} (view : PairHistory → β) (u : UID)
    (hcall : ∀ h h' c, view h = view h' → view (h.step p s c) = view (h'.step p s c))
    (hcallOther : ∀ h c, callKey c ≠ u → view (h.step p s c) = view h)
    (events : List Event) :
    view (pairHistory (history events).2 p s) =
      view (pairHistory (history (eventsOf u events)).2 p s) := by
  have hother : ∀ (e : Event) kinds h, e.key ≠ some u →
      view ((e.joinCalls kinds).foldl (PairHistory.step p s) h) = view h :=
    fun e kinds h he => foldl_proj_of_forall _ view
      (fun h c hc => hcallOther h c fun hk => he (hk ▸ key_of_mem_joinCalls hc)) h
  rw [pairHistory_history, pairHistory_history]
  refine congrArg Prod.snd (foldl_eventsOf (pairStep p s) (fun x => (x.1.lookup u, view x.2))
    (fun x x' e hx => ?_) (fun x e he => ?_) events _)
  · simp only [Prod.mk.injEq, pairStep] at hx ⊢
    refine ⟨lookup_kinds_congr hx.1, ?_⟩
    by_cases he : e.key = some u
    · rw [joinCalls_congr fun key hk => Option.some.inj (hk.symm.trans he) ▸ hx.1]
      exact foldl_proj_congr _ view hcall _ hx.2
    · rw [hother e x.1 x.2 he, hother e x'.1 x'.2 he, hx.2]
  · simp only [pairStep, lookup_kinds_of_key_ne he, hother e x.1 x.2 he]

theorem pod_pairHistory_eventsOf (events : List Event) (p s : UID) :
    (pairHistory (history events).2 p s).pod =
      (pairHistory (history (eventsOf p events)).2 p s).pod := by
  refine view_pairHistory_eventsOf (·.pod) p (fun h h' c hp => ?_) (fun h c hc => ?_) events
  · cases c <;> simp only [PairHistory.step] <;> split_ifs <;> simp [hp]
  · cases c <;> simp only [PairHistory.step, callKey] at hc ⊢ <;> split_ifs <;> simp_all

theorem svc_pairHistory_eventsOf (events : List Event) (p s : UID) :
    (pairHistory (history events).2 p s).svc =
      (pairHistory (history (eventsOf s events)).2 p s).svc := by
  refine view_pairHistory_eventsOf (·.svc) s (fun h h' c hs => ?_) (fun h c hc => ?_) events
  · cases c <;> simp only [PairHistory.step] <;> split_ifs <;> simp [hs]
  · cases c <;> simp only [PairHistory.step, callKey] at hc ⊢ <;> split_ifs <;> simp_all

/-! ### The service property -/

theorem matches_congr {h h' : PairHistory} (hp : h.pod = h'.pod) (hs : h.svc = h'.svc) :
    h.matches = h'.matches := by
  simp only [PairHistory.matches, hp, hs]

/-- **The service property does not depend on the interleaving while matches are stable.** When
the pod derivation gives every pod a record without a `"service"` property of its own, two runs
from a new cache, of events with one kind per UID that are the same for each UID and only
interleaved differently, both return; and a pod of the first whose versions match the versions
of each service alike has the same service property in both. -/
theorem service_property_independent_of_interleaving (dv : Derivations) (b : Bool)
    (es₁ es₂ : List Event) (hsame : ∀ u, eventsOf u es₁ = eventsOf u es₂)
    (hkinds : OneKindPerUID es₁) (hdv : ∀ pod, (dv.dimPropsForPod pod).isSome)
    (hbare : dv.BareRecords) :
    ∃ σ₁ σ₂, (newDatapointCache b).run dv propertyLinks es₁ = some σ₁ ∧
      (newDatapointCache b).run dv propertyLinks es₂ = some σ₂ ∧
      ∀ p d₁ d₂, σ₁.uidKindCache.lookup p = some "Pod" → σ₁.dimPropCache.lookup p = some d₁ →
        σ₂.dimPropCache.lookup p = some d₂ → (∀ s, MatchStable (history es₁).2 p s) →
        d₁.properties.lookup "service" = d₂.properties.lookup "service" := by
  obtain ⟨σ₁, hr₁, hl₁⟩ := exists_run_lookup_service b hkinds hdv hbare
  obtain ⟨σ₂, hr₂, hl₂⟩ := exists_run_lookup_service b (oneKindPerUID_of_eventsOf hsame hkinds) hdv
    hbare
  refine ⟨σ₁, σ₂, hr₁, hr₂, fun p d₁ d₂ hk hd₁ hd₂ hstable => ?_⟩
  have hk₂ : σ₂.uidKindCache.lookup p = some "Pod" := by
    rw [lookup_uidKindCache_eventsOf hr₂, ← hsame, ← lookup_uidKindCache_eventsOf hr₁, hk]
  have hsvc : ∀ s, (pairHistory (history es₁).2 p s).svc = (pairHistory (history es₂).2 p s).svc :=
    fun s => by rw [svc_pairHistory_eventsOf, hsame, ← svc_pairHistory_eventsOf]
  have hjoined : ∀ s,
      (pairHistory (history es₁).2 p s).joined = (pairHistory (history es₂).2 p s).joined := fun s => by
    rw [joined_eq_matches_of_matchStable (hstable s),
      joined_eq_matches_of_matchStable (matchStable_of_eventsOf hsame (hstable s))]
    exact matches_congr (by rw [pod_pairHistory_eventsOf, hsame, ← pod_pairHistory_eventsOf])
      (hsvc s)
  rw [hl₁ p d₁ hk hd₁, hl₂ p d₂ hk₂ hd₂]
  refine congrArg Except.toOption (getServiceNameForPodUID_congr (fun s => ?_) fun s _ => ?_)
  · rw [(runCalls_pair _ p s).1, (runCalls_pair _ p s).1, hjoined]
  · rw [(runCalls_pair _ p s).2, (runCalls_pair _ p s).2, hsvc]

theorem service_property_independent_of_interleaving_of_swapped_pod_and_service :
    let svc : Service := ⟨⟨"s", "web", "ns", none, none⟩, some ((∅ : Labels).insert "app" "web")⟩
    let pod : Resource := ⟨⟨"p", "web-1", "ns", some ((∅ : Labels).insert "app" "web"), none⟩, []⟩
    let es₁ := [Event.add (.service svc), .add (.pod pod)]
    let es₂ := [Event.add (.pod pod), .add (.service svc)]
    (∀ u, eventsOf u es₁ = eventsOf u es₂) ∧ OneKindPerUID es₁ ∧
      (∀ pod, (podRecordsOnly.dimPropsForPod pod).isSome) ∧ podRecordsOnly.BareRecords ∧
      ∃ σ₁ σ₂, (newDatapointCache false).run podRecordsOnly propertyLinks es₁ = some σ₁ ∧
        (newDatapointCache false).run podRecordsOnly propertyLinks es₂ = some σ₂ ∧
        ∀ p d₁ d₂, σ₁.uidKindCache.lookup p = some "Pod" → σ₁.dimPropCache.lookup p = some d₁ →
          σ₂.dimPropCache.lookup p = some d₂ → (∀ s, MatchStable (history es₁).2 p s) →
          d₁.properties.lookup "service" = d₂.properties.lookup "service" := by
  intro svc pod es₁ es₂
  have hsame : ∀ u, eventsOf u es₁ = eventsOf u es₂ := fun u => by
    simp only [es₁, es₂, eventsOf, List.filter_cons, List.filter_nil]
    rcases eq_or_ne "p" u with rfl | hp
    · simp [svc, pod, Event.key, keyForObject, Except.toOption]
    · simp [svc, pod, Event.key, keyForObject, Except.toOption, hp]
  have hk : OneKindPerUID es₁ := ⟨fun u => if u = "s" then "Service" else "Pod", by
    rintro obj hobj u k hu
    simp only [es₁, List.mem_cons, Event.add.injEq, List.not_mem_nil, or_false] at hobj
    rcases hobj with rfl | rfl <;> cases hu <;> rfl⟩
  have hdv : ∀ pod, (podRecordsOnly.dimPropsForPod pod).isSome := fun _ => rfl
  have hbare : podRecordsOnly.BareRecords := fun _ _ h => by cases h; rfl
  exact ⟨hsame, hk, hdv, hbare,
    service_property_independent_of_interleaving _ _ _ _ hsame hk hdv hbare⟩

end DatapointCache

end ClusterCache
