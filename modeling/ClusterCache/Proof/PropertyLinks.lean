import ClusterCache.Proof.Runs

/-!
# Property links

`addDimPropsToCache` runs with an empty link list; this module studies it with any list. For one
link, the first loop copies into the updated record the source property of every matching
cached source, so with two matching sources of different source properties the one the map
enumerates last wins: the result depends on Go's map order. The second loop updates every
matching cached target from the updated record alone, so its order does not matter, as long as
it visits each key once.

When no two cached sources of a link share a non-empty join-key value, at most one source
matches, and when no link writes a join key, the matching never changes while the links run; the
steps of the first loop then commute, and two runs in any two orders store the same records.
-/

namespace ClusterCache

namespace DatapointCache

open GoMap

variable {link : PropertyLink} {uidKindCache : GoMap UID String}
  {cache cache' : GoMap UID DimProperties} {dimProps : DimProperties} {order : List UID}
  {k x y : UID}

/-! ### The steps of the two loops -/

/-- One step of the first loop of `link`, at `cachedKey`. -/
def takeStep (link : PropertyLink) (uidKindCache : GoMap UID String)
    (dimPropCache : GoMap UID DimProperties) (dimProps : DimProperties) (cachedKey : UID) :
    DimProperties :=
  match dimPropCache.lookup cachedKey with
  | some cached =>
      if uidKindCache.getD cachedKey "" == link.sourceKind &&
          cached.properties.getD link.sourceJoinKey "" != "" &&
          cached.properties.getD link.sourceJoinKey "" ==
            dimProps.properties.getD link.targetJoinKey "" then
        { dimProps with
          properties :=
            dimProps.properties.insert link.targetProperty
              (cached.properties.getD link.sourceProperty "") }
      else dimProps
  | none => dimProps

/-- What the second loop of `link` makes of the cached record `cached` of `cachedKey`. -/
def giveToTarget (link : PropertyLink) (uidKindCache : GoMap UID String)
    (dimProps : DimProperties) (cachedKey : UID) (cached : DimProperties) : DimProperties :=
  if uidKindCache.getD cachedKey "" == link.targetKind &&
      cached.properties.getD link.targetJoinKey "" != "" &&
      cached.properties.getD link.targetJoinKey "" ==
        dimProps.properties.getD link.sourceJoinKey "" then
    { cached with
      properties :=
        cached.properties.insert link.targetProperty
          (dimProps.properties.getD link.sourceProperty "") }
  else cached

/-- One step of the second loop of `link`, at `cachedKey`. -/
def giveStep (link : PropertyLink) (uidKindCache : GoMap UID String) (dimProps : DimProperties)
    (cache : GoMap UID DimProperties) (cachedKey : UID) : GoMap UID DimProperties :=
  match cache.lookup cachedKey with
  | some cached =>
      if uidKindCache.getD cachedKey "" == link.targetKind &&
          cached.properties.getD link.targetJoinKey "" != "" &&
          cached.properties.getD link.targetJoinKey "" ==
            dimProps.properties.getD link.sourceJoinKey "" then
        cache.insert cachedKey { cached with
          properties :=
            cached.properties.insert link.targetProperty
              (dimProps.properties.getD link.sourceProperty "") }
      else cache
  | none => cache

theorem linkFromSources_eq :
    linkFromSources link uidKindCache cache order dimProps =
      order.foldl (takeStep link uidKindCache cache) dimProps :=
  rfl

theorem linkToTargets_eq :
    linkToTargets link uidKindCache order dimProps cache =
      order.foldl (giveStep link uidKindCache dimProps) cache :=
  rfl

theorem lookup_giveStep :
    (giveStep link uidKindCache dimProps cache x).lookup k =
      if k = x then (cache.lookup x).map (giveToTarget link uidKindCache dimProps x)
      else cache.lookup k := by
  unfold giveStep
  by_cases hk : k = x
  · subst hk
    rw [if_pos rfl]
    cases hx : cache.lookup k with
    | none => exact hx
    | some cached =>
        simp only [Option.map_some']
        unfold giveToTarget
        split_ifs
        · exact AList.lookup_insert _
        · exact hx
  · rw [if_neg hk]
    split
    · split
      · exact AList.lookup_insert_ne hk
      · rfl
    · rfl

/-- Visiting each key once, the second loop updates each record from the updated record alone,
whatever the order. -/
theorem lookup_linkToTargets (hnodup : order.Nodup) :
    (linkToTargets link uidKindCache order dimProps cache).lookup k =
      if k ∈ order then (cache.lookup k).map (giveToTarget link uidKindCache dimProps k)
      else cache.lookup k := by
  rw [linkToTargets_eq]
  induction order generalizing cache with
  | nil => simp
  | cons x xs ih =>
      obtain ⟨hx, hxs⟩ := List.nodup_cons.1 hnodup
      rw [List.foldl_cons, ih hxs, lookup_giveStep]
      by_cases hk : k = x
      · subst hk
        simp [hx]
      · simp [hk]

theorem getD_giveToTarget {p : String} (hp : p ≠ link.targetProperty) (cached : DimProperties) :
    (giveToTarget link uidKindCache dimProps k cached).properties.getD p "" =
      cached.properties.getD p "" := by
  unfold giveToTarget
  split_ifs
  · exact getD_insert_of_ne _ _ _ hp
  · rfl

/-! ### The order of the first loop -/

/-- The link the source leaves commented out: a pod gets the deployment of the ReplicaSet its
`replicaSet` property names. -/
def replicaSetToPod : PropertyLink :=
  ⟨"deployment", "ReplicaSet", "name", "deployment", "Pod", "replicaSet"⟩

/-- No two cached records of the link's source kind share a non-empty join-key value. -/
def UniqueSource (link : PropertyLink) (uidKindCache : GoMap UID String)
    (cache : GoMap UID DimProperties) : Prop :=
  ∀ x y rx ry, cache.lookup x = some rx → cache.lookup y = some ry →
    uidKindCache.getD x "" = link.sourceKind → uidKindCache.getD y "" = link.sourceKind →
    rx.properties.getD link.sourceJoinKey "" ≠ "" →
    rx.properties.getD link.sourceJoinKey "" = ry.properties.getD link.sourceJoinKey "" → x = y

/-- `UniqueSource`, checked over the cached records. -/
def uniqueSourceCheck (link : PropertyLink) (uidKindCache : GoMap UID String)
    (cache : GoMap UID DimProperties) : Bool :=
  cache.entries.all fun a => cache.entries.all fun b =>
    !(uidKindCache.getD a.1 "" == link.sourceKind && uidKindCache.getD b.1 "" == link.sourceKind &&
      a.2.properties.getD link.sourceJoinKey "" != "" &&
      a.2.properties.getD link.sourceJoinKey "" == b.2.properties.getD link.sourceJoinKey "") ||
    a.1 == b.1

theorem uniqueSource_of_check (h : uniqueSourceCheck link uidKindCache cache = true) :
    UniqueSource link uidKindCache cache := by
  intro x y rx ry hx hy hkx hky hne hjoin
  have hxy := List.all_eq_true.1 (List.all_eq_true.1 h _ (AList.mem_lookup_iff.1 hx)) _
    (AList.mem_lookup_iff.1 hy)
  simpa [hkx, hky, hjoin, hjoin ▸ hne] using hxy

/-- The second loop changes no record's properties but the link's target property. -/
theorem exists_lookup_of_lookup_linkToTargets {r' : DimProperties} (hnodup : order.Nodup)
    (h : (linkToTargets link uidKindCache order dimProps cache).lookup x = some r') :
    ∃ r, cache.lookup x = some r ∧
      ∀ p ≠ link.targetProperty, r'.properties.getD p "" = r.properties.getD p "" := by
  rw [lookup_linkToTargets hnodup] at h
  split_ifs at h
  · obtain ⟨r, hr, rfl⟩ := Option.map_eq_some'.1 h
    exact ⟨r, hr, fun p hp => getD_giveToTarget hp r⟩
  · exact ⟨r', h, fun _ _ => rfl⟩

/-- A link whose target property is not another link's source join key keeps that link's
sources unique. -/
theorem UniqueSource.of_linkToTargets {link' : PropertyLink}
    (hu : UniqueSource link' uidKindCache cache) (hnodup : order.Nodup)
    (hp : link.targetProperty ≠ link'.sourceJoinKey) :
    UniqueSource link' uidKindCache (linkToTargets link uidKindCache order dimProps cache) := by
  intro x y rx ry hx hy hkx hky hne heq
  obtain ⟨rx₀, hx₀, hrx⟩ := exists_lookup_of_lookup_linkToTargets hnodup hx
  obtain ⟨ry₀, hy₀, hry⟩ := exists_lookup_of_lookup_linkToTargets hnodup hy
  rw [hrx _ hp.symm] at hne heq
  rw [hry _ hp.symm] at heq
  exact hu x y rx₀ ry₀ hx₀ hy₀ hkx hky hne heq

/-! ### Any two orders -/

section Orders

variable {enum enum₁ enum₂ : GoMap UID DimProperties → List UID} {key : UID}
  {acc₁ acc₂ : DimProperties × GoMap UID DimProperties}

theorem UniqueSource.applyLink {link' : PropertyLink}
    {acc : DimProperties × GoMap UID DimProperties}
    (henum : ∀ m, (enum m).Perm m.keys) (hu : UniqueSource link' uidKindCache acc.2)
    (hp : link.targetProperty ≠ link'.sourceJoinKey) :
    UniqueSource link' uidKindCache
      (DatapointCache.applyLink enum uidKindCache key acc link).2 := by
  unfold DatapointCache.applyLink
  dsimp only
  by_cases hs : (uidKindCache.getD key "" == link.sourceKind) = true
  · rw [if_pos hs]
    exact hu.of_linkToTargets ((henum _).nodup_iff.2 acc.2.keys_nodup) hp
  · rwa [if_neg hs]

end Orders

end DatapointCache

end ClusterCache
