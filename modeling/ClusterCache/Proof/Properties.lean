import ClusterCache.Proof.Snapshot
import ClusterCache.Proof.RoundTrip

/-!
# Setting and deleting properties

`addPropertiesToDimProps` and `deletePropertiesFromDimProps` write, one property at a time,
through the pointer the cache holds for a key. At the first write, a key without a record is a
nil-pointer dereference; with a record, the writes compose into one write of the record's
properties (`foldlM_updateProperties`): the old ones overridden by the new ones, or without the
deleted ones. Nothing else in the cache changes. The new properties have distinct names, so the
order a range over them takes does not matter, and deleting the names just set gives back the
record when it held none of them.
-/

namespace ClusterCache

open GoMap

section Erase

variable {K V : Type} [DecidableEq K]

/-- Deleting keys from a map, one after another. -/
theorem lookup_foldl_erase (k : K) (xs : List K) (m : GoMap K V) :
    (xs.foldl (fun m x => m.erase x) m).lookup k = if k ∈ xs then none else m.lookup k := by
  induction xs generalizing m with
  | nil => simp
  | cons x xs ih =>
      rw [List.foldl_cons, ih]
      by_cases hk : k = x
      · subst hk
        simp
      · simp [hk, AList.lookup_erase_ne hk]

end Erase

namespace DatapointCache

variable {dc : DatapointCache} {key : UID} {dimProps : DimProperties}

/-! ### One write -/

theorem updateProperties_of_lookup (hd : dc.dimPropCache.lookup key = some dimProps)
    (f : GoMap String String → GoMap String String) :
    dc.updateProperties f key = some { dc with
      dimPropCache :=
        dc.dimPropCache.insert key { dimProps with properties := f dimProps.properties } } := by
  unfold updateProperties
  rw [hd]

theorem updateProperties_of_not_mem (hk : key ∉ dc.dimPropCache)
    (f : GoMap String String → GoMap String String) : dc.updateProperties f key = none := by
  unfold updateProperties
  rw [AList.lookup_eq_none.2 hk]

/-- The writes of a loop over a nonempty list compose into one write of the composed map. -/
theorem foldlM_updateProperties {α : Type} (g : α → GoMap String String → GoMap String String)
    (x : α) (xs : List α) :
    (x :: xs).foldlM (fun dc a => dc.updateProperties (g a) key) dc =
      (dc.dimPropCache.lookup key).map fun dimProps => { dc with
        dimPropCache := dc.dimPropCache.insert key { dimProps with
          properties := (x :: xs).foldl (fun props a => g a props) dimProps.properties } } := by
  induction xs generalizing x dc with
  | nil =>
      cases hd : dc.dimPropCache.lookup key
      · simp [updateProperties_of_not_mem (AList.lookup_eq_none.1 hd)]
      · simp [updateProperties_of_lookup hd]
  | cons y ys ih =>
      cases hd : dc.dimPropCache.lookup key with
      | none => simp [updateProperties_of_not_mem (AList.lookup_eq_none.1 hd)]
      | some dimProps =>
          rw [List.foldlM_cons, updateProperties_of_lookup hd, Option.bind_eq_bind,
            Option.some_bind, ih, AList.lookup_insert, Option.map_some']
          simp [AList.insert_insert]

/-! ### The two loops -/

/-- Setting properties with distinct names in a record that is there. -/
theorem addPropertiesToDimPropsBy_of_lookup {es : List (Σ _ : String, String)}
    (hes : es.NodupKeys) (hne : es ≠ []) (hd : dc.dimPropCache.lookup key = some dimProps) :
    ∃ props, dc.addPropertiesToDimPropsBy es key = some { dc with
        dimPropCache := dc.dimPropCache.insert key { dimProps with properties := props } } ∧
      ∀ name, props.lookup name = (es.dlookup name).or (dimProps.properties.lookup name) := by
  obtain ⟨e, es', rfl⟩ := List.exists_cons_of_ne_nil hne
  refine ⟨_, (foldlM_updateProperties _ e es').trans ?_, fun name => lookup_foldl_insert name _ hes _⟩
  rw [hd]
  rfl

/-- Deleting properties from a record that is there. -/
theorem deletePropertiesFromDimProps_of_lookup {propsToDelete : List String}
    (hne : propsToDelete ≠ []) (hd : dc.dimPropCache.lookup key = some dimProps) :
    ∃ props, dc.deletePropertiesFromDimProps key propsToDelete = some { dc with
        dimPropCache := dc.dimPropCache.insert key { dimProps with properties := props } } ∧
      ∀ name, props.lookup name =
        if name ∈ propsToDelete then none else dimProps.properties.lookup name := by
  obtain ⟨p, ps, rfl⟩ := List.exists_cons_of_ne_nil hne
  refine ⟨_, (foldlM_updateProperties _ p ps).trans ?_, fun name => lookup_foldl_erase name _ _⟩
  rw [hd]
  rfl

/-- At least one write to a key without a record dereferences nil. -/
theorem foldlM_updateProperties_of_not_mem {α : Type}
    (g : α → GoMap String String → GoMap String String) {xs : List α} (hne : xs ≠ [])
    (hk : key ∉ dc.dimPropCache) :
    xs.foldlM (fun dc a => dc.updateProperties (g a) key) dc = none := by
  obtain ⟨x, xs, rfl⟩ := List.exists_cons_of_ne_nil hne
  rw [foldlM_updateProperties, AList.lookup_eq_none.2 hk]
  rfl

/-- For every order a range over the new properties takes, `addPropertiesToDimProps` with at
least one new property dereferences nil when the key has no record, and otherwise gives the
record the new properties over its old ones, changing nothing else. -/
theorem addPropertiesToDimProps_overrides (dc : DatapointCache) (key : UID)
    (newProps : GoMap String String) {es : List (Σ _ : String, String)}
    (hes : es.Perm newProps.entries) (hne : newProps.entries ≠ []) :
    (key ∉ dc.dimPropCache → dc.addPropertiesToDimPropsBy es key = none) ∧
    ∀ dimProps, dc.dimPropCache.lookup key = some dimProps →
      ∃ props, dc.addPropertiesToDimPropsBy es key = some { dc with
          dimPropCache := dc.dimPropCache.insert key { dimProps with properties := props } } ∧
        ∀ name, props.lookup name = (newProps.lookup name).or (dimProps.properties.lookup name) := by
  have hnd : es.NodupKeys := (List.perm_nodupKeys hes).2 newProps.nodupKeys
  have hne' : es ≠ [] := fun h => hne (List.Perm.nil_eq (h ▸ hes)).symm
  refine ⟨foldlM_updateProperties_of_not_mem _ hne', fun dimProps hd => ?_⟩
  obtain ⟨props, hr, hprops⟩ := addPropertiesToDimPropsBy_of_lookup hnd hne' hd
  refine ⟨props, hr, fun name => ?_⟩
  rw [hprops, List.perm_dlookup name hnd newProps.nodupKeys hes]
  rfl

theorem addPropertiesToDimProps_overrides_of_two_properties :
    let dimProps : DimProperties := ⟨⟨"pod_uid", "p"⟩, (∅ : GoMap String String).insert "a" "0", ∅⟩
    let dc : DatapointCache := { newDatapointCache false with
      dimPropCache := (∅ : GoMap UID DimProperties).insert "p" dimProps }
    let newProps : GoMap String String := ((∅ : GoMap String String).insert "a" "1").insert "b" "2"
    newProps.entries.reverse.Perm newProps.entries ∧ newProps.entries ≠ [] ∧
      ((("p" : UID) ∉ dc.dimPropCache →
          dc.addPropertiesToDimPropsBy newProps.entries.reverse "p" = none) ∧
        ∀ dimProps, dc.dimPropCache.lookup "p" = some dimProps →
          ∃ props, dc.addPropertiesToDimPropsBy newProps.entries.reverse "p" = some { dc with
              dimPropCache := dc.dimPropCache.insert "p" { dimProps with properties := props } } ∧
            ∀ name, props.lookup name =
              (newProps.lookup name).or (dimProps.properties.lookup name)) := by
  intro dimProps dc newProps
  have hes : newProps.entries.reverse.Perm newProps.entries := List.reverse_perm _
  have hne : newProps.entries ≠ [] := by decide
  exact ⟨hes, hne, addPropertiesToDimProps_overrides dc "p" newProps hes hne⟩

/-- `deletePropertiesFromDimProps` with at least one name dereferences nil when the key has no
record, and otherwise leaves the record without the listed properties, changing nothing
else. -/
theorem deletePropertiesFromDimProps_removes (dc : DatapointCache) (key : UID)
    (propsToDelete : List String) (hne : propsToDelete ≠ []) :
    (key ∉ dc.dimPropCache → dc.deletePropertiesFromDimProps key propsToDelete = none) ∧
    ∀ dimProps, dc.dimPropCache.lookup key = some dimProps →
      ∃ props, dc.deletePropertiesFromDimProps key propsToDelete = some { dc with
          dimPropCache := dc.dimPropCache.insert key { dimProps with properties := props } } ∧
        ∀ name, props.lookup name =
          if name ∈ propsToDelete then none else dimProps.properties.lookup name :=
  ⟨foldlM_updateProperties_of_not_mem _ hne, fun _ hd =>
    deletePropertiesFromDimProps_of_lookup hne hd⟩

theorem deletePropertiesFromDimProps_removes_of_service :
    let dimProps : DimProperties :=
      ⟨⟨"pod_uid", "p"⟩, (∅ : GoMap String String).insert "service" "web", ∅⟩
    let dc : DatapointCache := { newDatapointCache false with
      dimPropCache := (∅ : GoMap UID DimProperties).insert "p" dimProps }
    ["service"] ≠ [] ∧
      ((("p" : UID) ∉ dc.dimPropCache → dc.deletePropertiesFromDimProps "p" ["service"] = none) ∧
        ∀ dimProps, dc.dimPropCache.lookup "p" = some dimProps →
          ∃ props, dc.deletePropertiesFromDimProps "p" ["service"] = some { dc with
              dimPropCache := dc.dimPropCache.insert "p" { dimProps with properties := props } } ∧
            ∀ name, props.lookup name =
              if name ∈ ["service"] then none else dimProps.properties.lookup name) :=
  ⟨List.cons_ne_nil _ _, deletePropertiesFromDimProps_removes _ _ _ (List.cons_ne_nil _ _)⟩

/-- Deleting the names of properties just set, in whatever order the range set them, gives back
a record that held none of them: the cache has the same content as before. -/
theorem delete_after_add_properties_restores (dc : DatapointCache) (key : UID)
    (newProps : GoMap String String) {es : List (Σ _ : String, String)}
    (hes : es.Perm newProps.entries) (hd : dc.dimPropCache.lookup key = some dimProps)
    (hfresh : ∀ name ∈ newProps, name ∉ dimProps.properties) :
    ∃ dc', (dc.addPropertiesToDimPropsBy es key).bind
        (fun dc₁ => dc₁.deletePropertiesFromDimProps key newProps.keys) = some dc' ∧
      SameCache dc' dc := by
  have hnd : es.NodupKeys := (List.perm_nodupKeys hes).2 newProps.nodupKeys
  have hkeys : newProps.keys = [] ↔ es = [] := by
    rw [AList.keys, List.keys, List.map_eq_nil_iff]
    exact ⟨fun h => List.Perm.eq_nil (h ▸ hes), fun h => (List.Perm.nil_eq (h ▸ hes)).symm⟩
  by_cases hne : es = []
  · subst hne
    rw [hkeys.2 rfl]
    exact ⟨dc, rfl, .refl dc⟩
  obtain ⟨props₁, hr₁, hprops₁⟩ := addPropertiesToDimPropsBy_of_lookup hnd hne hd
  let d₁ : DimProperties := { dimProps with properties := props₁ }
  have hd₁ : ({ dc with dimPropCache := dc.dimPropCache.insert key d₁ } :
      DatapointCache).dimPropCache.lookup key = some d₁ := AList.lookup_insert _
  obtain ⟨props₂, hr₂, hprops₂⟩ :=
    deletePropertiesFromDimProps_of_lookup (fun h => hne (hkeys.1 h)) hd₁
  rw [hr₁, Option.some_bind, hr₂]
  refine ⟨_, rfl, rfl, rfl, fun k => ?_, .refl _, rfl⟩
  by_cases hk : k = key
  · subst hk
    simp only [AList.insert_insert, AList.lookup_insert, hd]
    refine .some ⟨rfl, rfl, fun name => ?_⟩
    simp only [hprops₂, hprops₁, AList.mem_keys]
    rw [List.perm_dlookup name hnd newProps.nodupKeys hes]
    split_ifs with hn
    · exact (AList.lookup_eq_none.2 (hfresh name hn)).symm
    · have hnone : newProps.entries.dlookup name = none := AList.lookup_eq_none.2 hn
      rw [hnone]
      rfl
  · simp only [AList.lookup_insert_ne hk]
    exact optionRel_sameRecord_refl _

theorem delete_after_add_properties_restores_of_pod_record :
    let dimProps : DimProperties :=
      ⟨⟨"pod_uid", "p"⟩, (∅ : GoMap String String).insert "service" "web", ∅⟩
    let dc : DatapointCache := { newDatapointCache false with
      dimPropCache := (∅ : GoMap UID DimProperties).insert "p" dimProps }
    let newProps : GoMap String String := ((∅ : GoMap String String).insert "a" "1").insert "b" "2"
    newProps.entries.reverse.Perm newProps.entries ∧ dc.dimPropCache.lookup "p" = some dimProps ∧
      (∀ name ∈ newProps, name ∉ dimProps.properties) ∧
      ∃ dc', (dc.addPropertiesToDimPropsBy newProps.entries.reverse "p").bind
          (fun dc₁ => dc₁.deletePropertiesFromDimProps "p" newProps.keys) = some dc' ∧
        SameCache dc' dc := by
  intro dimProps dc newProps
  have hes : newProps.entries.reverse.Perm newProps.entries := List.reverse_perm _
  have hd : dc.dimPropCache.lookup "p" = some dimProps := rfl
  have hfresh : ∀ name ∈ newProps, name ∉ dimProps.properties := by decide
  exact ⟨hes, hd, hfresh, delete_after_add_properties_restores dc "p" newProps hes hd hfresh⟩

end DatapointCache

end ClusterCache
