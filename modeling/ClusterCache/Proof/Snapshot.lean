import ClusterCache.Snapshot

/-!
# Snapshots are complete and faithful

The loop of `AllDatapoints` appends the datapoints of each key it visits, and the loop of
`AllDimProperties` a copy of the record of each, so the first returns the concatenation of the
cached slices in the order of the range, and the second the copies of the cached records in that
order. A range visits each key once, so the two are the cached datapoints, each once, and one
copy per cached record, whatever the order. Copying a map entry by entry into a new map gives a
map with the same entries, since the keys of the copied map are distinct.
-/

namespace ClusterCache

open GoMap

/-! ### Copying a map -/

section Copy

variable {K V : Type} [DecidableEq K]

/-- Inserting entries with distinct keys into a map, one after another. -/
theorem lookup_foldl_insert (k : K) :
    ∀ (es : List (Σ _ : K, V)), es.NodupKeys → ∀ acc : GoMap K V,
      (es.foldl (fun m e => m.insert e.1 e.2) acc).lookup k = (es.dlookup k).or (acc.lookup k)
  | [], _, _ => rfl
  | ⟨a, b⟩ :: es, hes, acc => by
      rw [List.foldl_cons, lookup_foldl_insert k es (List.nodupKeys_cons.1 hes).2]
      by_cases hk : k = a
      · subst hk
        rw [List.dlookup_eq_none.2 (List.nodupKeys_cons.1 hes).1, AList.lookup_insert,
          List.dlookup_cons_eq]
        rfl
      · rw [AList.lookup_insert_ne hk, List.dlookup_cons_ne _ _ hk]

/-- A map copied entry by entry into a new one has the same entries. -/
theorem deepEqual_foldl_insert [DecidableEq V] (m : GoMap K V) :
    deepEqual (m.entries.foldl (fun c e => c.insert e.1 e.2) ∅) m = true :=
  deepEqual_iff.2 fun k => by
    rw [lookup_foldl_insert k _ m.nodupKeys]
    exact Option.or_none

end Copy

/-- `DimProperties.Copy` keeps the dimension, and makes maps deeply equal to the record's. -/
theorem DimProperties.copy_faithful (dp : DimProperties) :
    dp.copy.toDimension = dp.toDimension ∧ deepEqual dp.copy.properties dp.properties = true ∧
      deepEqual dp.copy.tags dp.tags = true :=
  ⟨rfl, deepEqual_foldl_insert _, deepEqual_foldl_insert _⟩

theorem DimProperties.lookup_copy_properties (dp : DimProperties) (k : String) :
    dp.copy.properties.lookup k = dp.properties.lookup k :=
  (lookup_foldl_insert k _ dp.properties.nodupKeys ∅).trans Option.or_none

theorem DimProperties.lookup_copy_tags (dp : DimProperties) (k : String) :
    dp.copy.tags.lookup k = dp.tags.lookup k :=
  (lookup_foldl_insert k _ dp.tags.nodupKeys ∅).trans Option.or_none

namespace DatapointCache

variable {dc : DatapointCache} {order : List UID}

/-! ### The loops -/

theorem allDatapointsBy_eq (dc : DatapointCache) (order : List UID) :
    dc.allDatapointsBy order = order.flatMap fun k => (dc.dpCache.lookup k).getD [] := by
  suffices ∀ acc, order.foldl (fun dps k =>
      match dc.dpCache.lookup k with
      | some kdps => dps ++ kdps
      | none => dps) acc = acc ++ order.flatMap fun k => (dc.dpCache.lookup k).getD [] from
    this []
  induction order with
  | nil => exact fun acc => (List.append_nil acc).symm
  | cons k ks ih =>
      intro acc
      rw [List.foldl_cons, ih, List.flatMap_cons, ← List.append_assoc]
      cases dc.dpCache.lookup k <;> simp

theorem allDimPropertiesBy_eq (dc : DatapointCache) (order : List UID) :
    dc.allDimPropertiesBy order =
      order.filterMap fun k => (dc.dimPropCache.lookup k).map (·.copy) := by
  suffices ∀ acc, order.foldl (fun dimProps k =>
      match dc.dimPropCache.lookup k with
      | some cached => dimProps ++ [cached.copy]
      | none => dimProps) acc =
        acc ++ order.filterMap fun k => (dc.dimPropCache.lookup k).map (·.copy) from
    this []
  induction order with
  | nil => exact fun acc => (List.append_nil acc).symm
  | cons k ks ih =>
      intro acc
      rw [List.foldl_cons, ih, List.filterMap_cons]
      cases dc.dimPropCache.lookup k <;> simp

/-! Ranging over the keys of a map and reading each reads each entry once. -/

theorem flatMap_keys {V W : Type} (m : GoMap UID V) {g : UID → List W} {f : V → List W}
    (h : ∀ k v, m.lookup k = some v → g k = f v) :
    m.keys.flatMap g = m.entries.flatMap fun e => f e.2 := by
  rw [AList.keys, List.keys, List.flatMap_map]
  exact congrArg List.flatten
    (List.map_congr_left fun e he => h e.1 e.2 (AList.mem_lookup_iff.2 he))

theorem filterMap_keys {V W : Type} (m : GoMap UID V) {g : UID → Option W} {f : V → W}
    (h : ∀ k v, m.lookup k = some v → g k = some (f v)) :
    m.keys.filterMap g = m.entries.map fun e => f e.2 := by
  rw [AList.keys, List.keys, List.filterMap_map]
  suffices ∀ l : List (Σ _ : UID, V), (∀ e ∈ l, g e.1 = some (f e.2)) →
      l.filterMap (g ∘ Sigma.fst) = l.map fun e => f e.2 from
    this _ fun e he => h e.1 e.2 (AList.mem_lookup_iff.2 he)
  intro l hl
  induction l with
  | nil => rfl
  | cons e es ih =>
      rw [List.filterMap_cons, Function.comp_apply, hl e (List.mem_cons_self e es), List.map_cons,
        ih fun e' he' => hl e' (List.mem_cons_of_mem e he')]

/-- **Complete and faithful snapshots.** In every state of the cache, and whatever order Go
ranges over its maps in, `AllDatapoints` returns each cached datapoint once, and
`AllDimProperties` one copy of each cached record, a copy having the record's dimension and maps
deeply equal to its properties and tags. -/
theorem snapshots_complete_and_faithful (dc : DatapointCache) {order₁ order₂ : List UID}
    (h₁ : order₁.Perm dc.dpCache.keys) (h₂ : order₂.Perm dc.dimPropCache.keys) :
    (dc.allDatapointsBy order₁).Perm (dc.dpCache.entries.flatMap (·.2)) ∧
      (dc.allDimPropertiesBy order₂).Perm (dc.dimPropCache.entries.map (·.2.copy)) ∧
      ∀ dp : DimProperties, dp.copy.toDimension = dp.toDimension ∧
        deepEqual dp.copy.properties dp.properties = true ∧
        deepEqual dp.copy.tags dp.tags = true := by
  refine ⟨?_, ?_, DimProperties.copy_faithful⟩
  · have hkeys : (dc.dpCache.keys.flatMap fun k => (dc.dpCache.lookup k).getD []) =
        dc.dpCache.entries.flatMap (·.2) :=
      flatMap_keys dc.dpCache (f := fun v => v) fun _ _ hkv => by simp [hkv]
    rw [allDatapointsBy_eq, ← hkeys]
    exact h₁.flatMap_right _
  · have hkeys : (dc.dimPropCache.keys.filterMap fun k => (dc.dimPropCache.lookup k).map (·.copy)) =
        dc.dimPropCache.entries.map (·.2.copy) :=
      filterMap_keys dc.dimPropCache (f := DimProperties.copy) fun _ _ hkv => by simp [hkv]
    rw [allDimPropertiesBy_eq, ← hkeys]
    exact h₂.filterMap _

/-- A cache with the datapoints of two keys and the record of one, ranged over in the reverse
order of its keys. -/
theorem snapshots_complete_and_faithful_of_two_keys :
    let dp (v : Int) : Datapoint := ⟨"kubernetes.container_ready", [], v⟩
    let dc : DatapointCache :=
      { newDatapointCache false with
        dpCache := ((∅ : GoMap UID (List Datapoint)).insert "a" [dp 1]).insert "b" [dp 0, dp 1]
        dimPropCache := (∅ : GoMap UID DimProperties).insert "a"
          ⟨⟨"kubernetes_pod_uid", "a"⟩, (∅ : GoMap String String).insert "app" "web", ∅⟩ }
    (dc.allDatapointsBy dc.dpCache.keys.reverse).Perm [dp 0, dp 1, dp 1] ∧
      (dc.allDimPropertiesBy dc.dimPropCache.keys.reverse).Perm
        (dc.dimPropCache.entries.map (·.2.copy)) := by
  intro dp dc
  have h := snapshots_complete_and_faithful dc (List.reverse_perm _) (List.reverse_perm _)
  exact ⟨h.1, h.2.1⟩

/-- At the code's own order, the keys of the record map, `AllDimProperties` returns the copies
of the cached records in the order of the map. -/
theorem allDimProperties_eq (dc : DatapointCache) :
    dc.allDimProperties = dc.dimPropCache.entries.map (·.2.copy) := by
  rw [allDimProperties, allDimPropertiesBy_eq]
  exact filterMap_keys dc.dimPropCache (f := DimProperties.copy) fun _ _ hkv => by simp [hkv]

end DatapointCache

end ClusterCache
