import ClusterCache.Proof.PropertyLinks

/-!
# Consistency of property links over runs

Run with links, adding a record of a link's target kind copies into it the source property of
the cached sources it matches, and adding one of its source kind copies its source property into
the cached targets it matches. Every cached target then holds the source property of the cached
source it matches, in every state of a run, under four conditions on the links: no link writes a
property that a link reads on records of the same kind, no two links write the same property of
the same kind, every link joins two kinds, and no link reads or writes the `"service"` property,
which the service updates set without running the links. Each target property is then written
by its own link alone, from values that never change while the links run. The sources of each
link must be unique in every state of the run, not only in the last: a target keeps the property
of a source that shared its join key with one deleted since.
-/

namespace ClusterCache

/-- The properties a link reads, each with the kind of the records it reads it on. -/
def PropertyLink.reads (l : PropertyLink) : List (String × String) :=
  [(l.sourceKind, l.sourceProperty), (l.sourceKind, l.sourceJoinKey),
    (l.targetKind, l.targetJoinKey)]

/-- The property a link writes, with the kind of the records it writes it on. -/
def PropertyLink.writes (l : PropertyLink) : String × String :=
  (l.targetKind, l.targetProperty)

namespace DatapointCache

open GoMap

variable {link : PropertyLink} {uidKindCache : GoMap UID String}
  {cache : GoMap UID DimProperties} {dimProps : DimProperties} {order : List UID}
  {p : String} {x y : UID}

/-! ### One property of the cache -/

/-- The property `p` of the record cached under `x`, read as `""` when the record lacks it. -/
def propOf (cache : GoMap UID DimProperties) (x : UID) (p : String) : Option String :=
  (cache.lookup x).map fun r => r.properties.getD p ""

theorem propOf_eq_some {v : String} :
    propOf cache x p = some v ↔ ∃ r, cache.lookup x = some r ∧ r.properties.getD p "" = v :=
  Option.map_eq_some'

theorem propOf_of_lookup {r : DimProperties} (h : cache.lookup x = some r) :
    propOf cache x p = some (r.properties.getD p "") := by
  simp [propOf, h]

theorem mem_of_propOf_eq_some {v : String} (h : propOf cache x p = some v) : x ∈ cache := by
  obtain ⟨r, hr, -⟩ := propOf_eq_some.1 h
  exact AList.lookup_isSome.1 (by simp [hr])

theorem propOf_insert {r : DimProperties} :
    propOf (cache.insert x r) y p =
      if y = x then some (r.properties.getD p "") else propOf cache y p := by
  unfold propOf
  split_ifs with h
  · subst h
    simp
  · rw [AList.lookup_insert_ne h]

theorem propOf_erase : propOf (cache.erase x) y p = if y = x then none else propOf cache y p := by
  unfold propOf
  split_ifs with h
  · subst h
    simp
  · rw [AList.lookup_erase_ne h]

/-- `UniqueSource`, read through `propOf`. -/
theorem UniqueSource.eq_of_propOf (hu : UniqueSource link uidKindCache cache) {v : String}
    (hkx : uidKindCache.getD x "" = link.sourceKind)
    (hky : uidKindCache.getD y "" = link.sourceKind)
    (hv : v ≠ "") (hx : propOf cache x link.sourceJoinKey = some v)
    (hy : propOf cache y link.sourceJoinKey = some v) : x = y := by
  obtain ⟨rx, hrx, rfl⟩ := propOf_eq_some.1 hx
  obtain ⟨ry, hry, hjoin⟩ := propOf_eq_some.1 hy
  exact hu x y rx ry hrx hry hkx hky hv hjoin.symm

/-- Sources stay unique in a cache whose sources have the same join keys. -/
theorem UniqueSource.of_propOf {cache' : GoMap UID DimProperties}
    (hu : UniqueSource link uidKindCache cache')
    (h : ∀ x, uidKindCache.getD x "" = link.sourceKind →
      propOf cache x link.sourceJoinKey = propOf cache' x link.sourceJoinKey) :
    UniqueSource link uidKindCache cache := by
  intro x y rx ry hx hy hkx hky hne hjoin
  have hx' := (h x hkx).symm.trans (propOf_of_lookup hx)
  have hy' := (h y hky).symm.trans (propOf_of_lookup hy)
  rw [← hjoin] at hy'
  exact hu.eq_of_propOf hkx hky hne hx' hy'

/-! ### What the loops write -/

theorem getD_takeStep (hp : p ≠ link.targetProperty) :
    (takeStep link uidKindCache cache dimProps x).properties.getD p "" =
      dimProps.properties.getD p "" := by
  unfold takeStep
  split
  · split_ifs
    · exact getD_insert_of_ne _ _ _ hp
    · rfl
  · rfl

theorem getD_linkFromSources (hp : p ≠ link.targetProperty) :
    (linkFromSources link uidKindCache cache order dimProps).properties.getD p "" =
      dimProps.properties.getD p "" := by
  rw [linkFromSources_eq]
  induction order generalizing dimProps with
  | nil => rfl
  | cons x xs ih => rw [List.foldl_cons, ih, getD_takeStep hp]

/-- The second loop writes only the target property of records of the target kind. -/
theorem getD_giveToTarget_of_ne
    (h : p ≠ link.targetProperty ∨ uidKindCache.getD x "" ≠ link.targetKind)
    (cached : DimProperties) :
    (giveToTarget link uidKindCache dimProps x cached).properties.getD p "" =
      cached.properties.getD p "" := by
  rcases h with hp | hk
  · exact getD_giveToTarget hp cached
  · unfold giveToTarget
    rw [if_neg (by simp [hk])]

theorem propOf_giveStep
    (h : p ≠ link.targetProperty ∨ uidKindCache.getD y "" ≠ link.targetKind) :
    propOf (giveStep link uidKindCache dimProps cache x) y p = propOf cache y p := by
  unfold propOf
  rw [lookup_giveStep]
  split_ifs with hy
  · subst hy
    cases cache.lookup y <;> simp [getD_giveToTarget_of_ne h]
  · rfl

theorem propOf_linkToTargets
    (h : p ≠ link.targetProperty ∨ uidKindCache.getD y "" ≠ link.targetKind) :
    propOf (linkToTargets link uidKindCache order dimProps cache) y p = propOf cache y p := by
  rw [linkToTargets_eq]
  induction order generalizing cache with
  | nil => rfl
  | cons x xs ih => rw [List.foldl_cons, ih, propOf_giveStep h]

/-- A step of the first loop at a key other than the one matching source copies nothing. -/
theorem takeStep_of_ne_source {s : UID} {rs : DimProperties}
    (hu : UniqueSource link uidKindCache cache) (hs : cache.lookup s = some rs)
    (hks : uidKindCache.getD s "" = link.sourceKind)
    (hjoin : rs.properties.getD link.sourceJoinKey "" =
      dimProps.properties.getD link.targetJoinKey "") (hx : x ≠ s) :
    takeStep link uidKindCache cache dimProps x = dimProps := by
  unfold takeStep
  cases hx' : cache.lookup x with
  | none => rfl
  | some rx =>
      dsimp only
      rw [if_neg]
      simp only [Bool.and_eq_true, beq_iff_eq, bne_iff_ne, ne_eq]
      rintro ⟨⟨hkx, hne⟩, heq⟩
      exact hx (hu x s rx rs hx' hs hkx hks hne (heq.trans hjoin.symm))

/-- With unique sources, the first loop leaves in the updated record the source property of the
one source it matches, when the order visits it. -/
theorem getD_foldl_takeStep_of_unique {s : UID} {rs : DimProperties}
    (hu : UniqueSource link uidKindCache cache) (htp : link.targetProperty ≠ link.targetJoinKey)
    (hs : cache.lookup s = some rs) (hks : uidKindCache.getD s "" = link.sourceKind)
    (hne : rs.properties.getD link.sourceJoinKey "" ≠ "") :
    ∀ (order : List UID) (d : DimProperties),
      rs.properties.getD link.sourceJoinKey "" = d.properties.getD link.targetJoinKey "" →
      (order.foldl (takeStep link uidKindCache cache) d).properties.getD link.targetProperty "" =
        if s ∈ order then rs.properties.getD link.sourceProperty ""
        else d.properties.getD link.targetProperty ""
  | [], _, _ => by simp
  | x :: xs, d, hd => by
      rw [List.foldl_cons]
      by_cases hx : x = s
      · subst hx
        have hfire : takeStep link uidKindCache cache d x =
            { d with
              properties :=
                d.properties.insert link.targetProperty
                  (rs.properties.getD link.sourceProperty "") } := by
          simp only [takeStep, hs]
          rw [if_pos (by simp [hks, hd, hd ▸ hne])]
        have hd' : rs.properties.getD link.sourceJoinKey "" =
            (takeStep link uidKindCache cache d x).properties.getD link.targetJoinKey "" := by
          rw [getD_takeStep htp.symm]
          exact hd
        rw [getD_foldl_takeStep_of_unique hu htp hs hks hne xs _ hd',
          if_pos (List.mem_cons_self _ _), hfire]
        split_ifs
        · rfl
        · exact getD_insert_self _ _ _ _
      · rw [takeStep_of_ne_source hu hs hks hd hx,
          getD_foldl_takeStep_of_unique hu htp hs hks hne xs d hd]
        simp only [List.mem_cons, Ne.symm hx, false_or]

theorem getD_giveToTarget_of_match {t : UID} {rt : DimProperties}
    (hkt : uidKindCache.getD t "" = link.targetKind)
    (hne : rt.properties.getD link.targetJoinKey "" ≠ "")
    (hjoin : rt.properties.getD link.targetJoinKey "" =
      dimProps.properties.getD link.sourceJoinKey "") :
    (giveToTarget link uidKindCache dimProps t rt).properties.getD link.targetProperty "" =
      dimProps.properties.getD link.sourceProperty "" := by
  unfold giveToTarget
  rw [if_pos (by simp [hkt, hjoin, hjoin ▸ hne])]
  exact getD_insert_self _ _ _ _

theorem giveToTarget_of_not_match {t : UID} {rt : DimProperties}
    (h : ¬(uidKindCache.getD t "" = link.targetKind ∧
      rt.properties.getD link.targetJoinKey "" ≠ "" ∧
      rt.properties.getD link.targetJoinKey "" = dimProps.properties.getD link.sourceJoinKey "")) :
    giveToTarget link uidKindCache dimProps t rt = rt := by
  unfold giveToTarget
  rw [if_neg]
  simpa [and_assoc] using h

/-! ### One link -/

section OneLink

variable {key : UID} {acc : DimProperties × GoMap UID DimProperties} {q : String × String}

/-- Two states of the link fold adding a record under `key` agree on the property `q.2` of the
records of kind `q.1`: in the record being added, when it is of that kind, and in every cached
record of that kind. -/
def AgreeOn (uidKindCache : GoMap UID String) (key : UID) (q : String × String)
    (a b : DimProperties × GoMap UID DimProperties) : Prop :=
  (uidKindCache.getD key "" = q.1 → a.1.properties.getD q.2 "" = b.1.properties.getD q.2 "") ∧
    ∀ y, uidKindCache.getD y "" = q.1 → propOf a.2 y q.2 = propOf b.2 y q.2

theorem AgreeOn.trans {a b c : DimProperties × GoMap UID DimProperties}
    (h₁ : AgreeOn uidKindCache key q a b) (h₂ : AgreeOn uidKindCache key q b c) :
    AgreeOn uidKindCache key q a c :=
  ⟨fun hk => (h₁.1 hk).trans (h₂.1 hk), fun y hy => (h₁.2 y hy).trans (h₂.2 y hy)⟩

/-- A link changes no property but the one it writes. -/
theorem agreeOn_applyLink {enum : GoMap UID DimProperties → List UID} (hq : link.writes ≠ q) :
    AgreeOn uidKindCache key q acc (applyLink enum uidKindCache key acc link) := by
  have hne : ∀ y, uidKindCache.getD y "" = q.1 →
      q.2 ≠ link.targetProperty ∨ uidKindCache.getD y "" ≠ link.targetKind := fun y hy => by
    by_cases hk : uidKindCache.getD y "" = link.targetKind
    · exact .inl fun hp => hq (Prod.ext (hk.symm.trans hy) hp.symm)
    · exact .inr hk
  unfold applyLink
  refine ⟨fun hk => ?_, fun y hy => ?_⟩ <;> dsimp only
  · split_ifs with htk
    · exact (getD_linkFromSources ((hne key hk).resolve_right (by simpa using htk))).symm
    · rfl
  · by_cases hs : (uidKindCache.getD key "" == link.sourceKind) = true
    · rw [if_pos hs, propOf_linkToTargets (hne y hy)]
    · rw [if_neg hs]

theorem agreeOn_foldl_applyLink {enum : GoMap UID DimProperties → List UID}
    {links : List PropertyLink} (hq : ∀ l ∈ links, l.writes ≠ q)
    (acc : DimProperties × GoMap UID DimProperties) :
    AgreeOn uidKindCache key q acc (links.foldl (applyLink enum uidKindCache key) acc) := by
  induction links generalizing acc with
  | nil => exact ⟨fun _ => rfl, fun _ _ => rfl⟩
  | cons l ls ih =>
      exact (agreeOn_applyLink (hq l (List.mem_cons_self _ _))).trans
        (ih (fun l' h' => hq l' (.tail _ h')) _)

/-- A record of the link's target kind takes the source property of the one cached source it
matches. -/
theorem applyLink_target_takes (htp : link.targetProperty ≠ link.targetJoinKey)
    (hk : uidKindCache.getD key "" = link.targetKind) (hu : UniqueSource link uidKindCache acc.2)
    {s : UID} {v : String} (hks : uidKindCache.getD s "" = link.sourceKind) (hv : v ≠ "")
    (hsv : propOf acc.2 s link.sourceJoinKey = some v)
    (htv : acc.1.properties.getD link.targetJoinKey "" = v) :
    some ((applyLink AList.keys uidKindCache key acc link).1.properties.getD
        link.targetProperty "") = propOf acc.2 s link.sourceProperty := by
  obtain ⟨rs, hs, rfl⟩ := propOf_eq_some.1 hsv
  have hmem : s ∈ acc.2.keys := AList.mem_keys.1 (AList.lookup_isSome.1 (by simp [hs]))
  unfold applyLink
  dsimp only
  rw [if_pos (by simp [hk]), linkFromSources_eq,
    getD_foldl_takeStep_of_unique hu htp hs hks hv _ _ htv.symm, if_pos hmem, propOf_of_lookup hs]

/-- A record of the link's source kind gives its source property to every cached target it
matches. -/
theorem applyLink_source_gives (hk : uidKindCache.getD key "" = link.sourceKind)
    (hkl : link.sourceKind ≠ link.targetKind) {t : UID} {v : String}
    (hkt : uidKindCache.getD t "" = link.targetKind) (hv : v ≠ "")
    (htv : propOf acc.2 t link.targetJoinKey = some v)
    (hsv : acc.1.properties.getD link.sourceJoinKey "" = v) :
    propOf (applyLink AList.keys uidKindCache key acc link).2 t link.targetProperty =
      some (acc.1.properties.getD link.sourceProperty "") := by
  obtain ⟨rt, ht, rfl⟩ := propOf_eq_some.1 htv
  have hmem : t ∈ acc.2.keys := AList.mem_keys.1 (AList.lookup_isSome.1 (by simp [ht]))
  unfold applyLink
  dsimp only
  rw [if_pos (show (uidKindCache.getD key "" == link.sourceKind) = true by simp [hk]),
    if_neg (show ¬(uidKindCache.getD key "" == link.targetKind) = true by simp [hk, hkl]), propOf,
    lookup_linkToTargets acc.2.keys_nodup, if_pos hmem, ht, Option.map_some', Option.map_some',
    getD_giveToTarget_of_match hkt hv hsv.symm]

/-- A cached record keeps its target property through a link, unless the record being added is
of the link's source kind and matches it. -/
theorem applyLink_target_untouched (hkl : link.sourceKind ≠ link.targetKind) {t : UID} :
    propOf (applyLink AList.keys uidKindCache key acc link).2 t link.targetProperty =
        propOf acc.2 t link.targetProperty ∨
      (uidKindCache.getD key "" = link.sourceKind ∧ uidKindCache.getD t "" = link.targetKind ∧
        ∃ v, v ≠ "" ∧ propOf acc.2 t link.targetJoinKey = some v ∧
          acc.1.properties.getD link.sourceJoinKey "" = v) := by
  unfold applyLink
  dsimp only
  by_cases hs : (uidKindCache.getD key "" == link.sourceKind) = true
  · have hk : uidKindCache.getD key "" = link.sourceKind := by simpa using hs
    unfold propOf
    rw [if_pos hs,
      if_neg (show ¬(uidKindCache.getD key "" == link.targetKind) = true by simp [hk, hkl]),
      lookup_linkToTargets acc.2.keys_nodup]
    cases ht : acc.2.lookup t with
    | none => exact .inl (by simp)
    | some rt =>
        have hmem : t ∈ acc.2.keys := AList.mem_keys.1 (AList.lookup_isSome.1 (by simp [ht]))
        rw [if_pos hmem, Option.map_some', Option.map_some']
        by_cases hm : uidKindCache.getD t "" = link.targetKind ∧
            rt.properties.getD link.targetJoinKey "" ≠ "" ∧
            rt.properties.getD link.targetJoinKey "" = acc.1.properties.getD link.sourceJoinKey ""
        · exact .inr ⟨hk, hm.1, _, hm.2.1, rfl, hm.2.2.symm⟩
        · exact .inl (by rw [giveToTarget_of_not_match hm]; rfl)
  · exact .inl (by rw [if_neg hs])

end OneLink

/-! ### Independent links -/

/-- Links under which each target property is written by its own link alone, from values no link
writes: no link writes a property a link reads on records of the same kind, no two links write
the same property of the same kind, each links two kinds, and none reads or writes the service
property. -/
structure Independent (links : List PropertyLink) : Prop where
  kinds : ∀ l ∈ links, l.sourceKind ≠ l.targetKind
  writes : (links.map PropertyLink.writes).Nodup
  reads : ∀ l ∈ links, ∀ l' ∈ links, l.writes ∉ l'.reads
  service : ∀ l ∈ links,
    "service" ∉ [l.sourceProperty, l.sourceJoinKey, l.targetJoinKey, l.targetProperty]

variable {links : List PropertyLink}

/-- Around one of independent links, the links before it change none of the properties it reads
or writes, the links after it do not change the one it writes, and no link changes one it
reads. -/
theorem foldl_applyLink_around (hl : Independent links) (hmem : link ∈ links)
    (enum : GoMap UID DimProperties → List UID) (uidKindCache : GoMap UID String) (key : UID)
    (acc : DimProperties × GoMap UID DimProperties) :
    ∃ acc', (∀ q ∈ link.writes :: link.reads, AgreeOn uidKindCache key q acc acc') ∧
      AgreeOn uidKindCache key (link.targetKind, link.targetProperty)
        (applyLink enum uidKindCache key acc' link)
        (links.foldl (applyLink enum uidKindCache key) acc) ∧
      ∀ q ∈ link.reads, AgreeOn uidKindCache key q acc'
        (links.foldl (applyLink enum uidKindCache key) acc) := by
  have hreads : ∀ q ∈ link.reads, ∀ l ∈ links, l.writes ≠ q :=
    fun q hq l hl' h => hl.reads l hl' link hmem (h ▸ hq)
  obtain ⟨pre, post, rfl⟩ := List.append_of_mem hmem
  have hnd := hl.writes
  rw [List.map_append, List.map_cons, List.nodup_append, List.nodup_cons] at hnd
  have hpre : ∀ l ∈ pre, l.writes ≠ link.writes := fun l h h' =>
    hnd.2.2 (List.mem_map_of_mem _ h) (h' ▸ List.mem_cons_self _ _)
  have hpost : ∀ l ∈ post, l.writes ≠ link.writes := fun l h h' =>
    hnd.2.1.1 (h' ▸ List.mem_map_of_mem _ h)
  rw [List.foldl_append, List.foldl_cons]
  refine ⟨pre.foldl (applyLink enum uidKindCache key) acc,
    fun q hq => agreeOn_foldl_applyLink ?_ acc, agreeOn_foldl_applyLink hpost _,
    fun q hq => (agreeOn_applyLink (hreads q hq link (by simp))).trans
      (agreeOn_foldl_applyLink (fun l h => hreads q hq l (by simp [h])) _)⟩
  rcases List.mem_cons.1 hq with rfl | hq
  · exact hpre
  · exact fun l h => hreads q hq l (by simp [h])

/-! ### Consistency -/

/-- Every cached record of a link's target kind holds the source property of every cached record
of its source kind whose join-key value is set and equal to its own. -/
def Consistent (links : List PropertyLink) (dc : DatapointCache) : Prop :=
  ∀ l ∈ links, ∀ t s, dc.uidKindCache.getD t "" = l.targetKind →
    dc.uidKindCache.getD s "" = l.sourceKind → ∀ v, v ≠ "" →
    propOf dc.dimPropCache s l.sourceJoinKey = some v →
    propOf dc.dimPropCache t l.targetJoinKey = some v →
    propOf dc.dimPropCache t l.targetProperty = propOf dc.dimPropCache s l.sourceProperty

/-- Adding a record through independent links keeps them consistent, when their sources are
unique in the resulting cache: the added record takes the property of the one source it
matches, gives its own to the targets it matches, and leaves every other target alone. -/
theorem Consistent.addDimPropsToCache {dc : DatapointCache} {key : UID} {r₀ : DimProperties}
    (hl : Independent links) (h : Consistent links dc)
    (hu : ∀ l ∈ links, UniqueSource l dc.uidKindCache
      (dc.addDimPropsToCache links key r₀).dimPropCache) :
    Consistent links (dc.addDimPropsToCache links key r₀) := by
  intro l hmem t s hkt hks v hv hsv htv
  change dc.uidKindCache.getD t "" = _ at hkt
  change dc.uidKindCache.getD s "" = _ at hks
  set fin := links.foldl (applyLink AList.keys dc.uidKindCache key) (r₀, dc.dimPropCache)
  have hc : ∀ z p, propOf (dc.addDimPropsToCache links key r₀).dimPropCache z p =
      if z = key then some (fin.1.properties.getD p "") else propOf fin.2 z p :=
    fun _ _ => propOf_insert
  obtain ⟨acc, hpre, hpost, hreads⟩ :=
    foldl_applyLink_around hl hmem AList.keys dc.uidKindCache key (r₀, dc.dimPropCache)
  have hsj : (l.sourceKind, l.sourceJoinKey) ∈ l.reads := by simp [PropertyLink.reads]
  have htj : (l.targetKind, l.targetJoinKey) ∈ l.reads := by simp [PropertyLink.reads]
  have hsp : (l.sourceKind, l.sourceProperty) ∈ l.reads := by simp [PropertyLink.reads]
  have hkl := hl.kinds l hmem
  simp only [hc] at hsv htv ⊢
  by_cases htk : t = key <;> by_cases hsk : s = key
  · exact (hkl (hks.symm.trans ((hsk.trans htk.symm) ▸ hkt))).elim
  · -- the added record is the target
    rw [if_pos htk] at htv ⊢
    rw [if_neg hsk] at hsv ⊢
    have hk : dc.uidKindCache.getD key "" = l.targetKind := htk ▸ hkt
    rw [← (hreads _ hsp).2 s hks, ← hpost.1 hk]
    have huniq : UniqueSource l dc.uidKindCache acc.2 := (hu l hmem).of_propOf fun x hx => by
      rw [hc, if_neg (show x ≠ key from fun h' => hkl (hx.symm.trans (h' ▸ hk)))]
      exact (hreads _ hsj).2 x hx
    have htp : l.targetProperty ≠ l.targetJoinKey := fun h' =>
      hl.reads l hmem l hmem (show (l.targetKind, l.targetProperty) ∈ l.reads from h' ▸ htj)
    exact applyLink_target_takes htp hk huniq
      hks hv (((hreads _ hsj).2 s hks).trans hsv) ((hreads _ htj).1 hk |>.trans
        (Option.some.inj htv))
  · -- the added record is the source
    rw [if_neg htk] at htv ⊢
    rw [if_pos hsk] at hsv ⊢
    have hk : dc.uidKindCache.getD key "" = l.sourceKind := hsk ▸ hks
    rw [← hpost.2 t hkt, ← (hreads _ hsp).1 hk]
    exact applyLink_source_gives hk hkl hkt hv (((hreads _ htj).2 t hkt).trans htv)
      ((hreads _ hsj).1 hk |>.trans (Option.some.inj hsv))
  · -- neither: the target keeps its property, unless the added record matches it
    rw [if_neg htk] at htv ⊢
    rw [if_neg hsk] at hsv ⊢
    have hagree : ∀ q ∈ l.reads, ∀ z, dc.uidKindCache.getD z "" = q.1 →
        propOf dc.dimPropCache z q.2 = propOf fin.2 z q.2 :=
      fun q hq z hz => ((hpre q (.tail _ hq)).2 z hz).trans ((hreads q hq).2 z hz)
    have hold := h l hmem t s hkt hks v hv ((hagree _ hsj s hks).trans hsv)
      ((hagree _ htj t hkt).trans htv)
    rw [← hagree _ hsp s hks, ← hold, ← hpost.2 t hkt]
    rcases applyLink_target_untouched hkl with hsame | ⟨hk, -, v', -, htv', hsv'⟩
    · rw [hsame]
      exact ((hpre _ (List.mem_cons_self _ _)).2 t hkt).symm
    · have hv' : v' = v :=
        Option.some.inj (htv'.symm.trans (((hreads _ htj).2 t hkt).trans htv))
      refine absurd ((hu l hmem).eq_of_propOf hks hk hv ?_ ?_) hsk
      · rw [hc, if_neg hsk]
        exact hsv
      · rw [hc, if_pos rfl, ← (hreads _ hsj).1 hk, hsv', hv']

/-! ### Events -/

variable {dv : Derivations} {kindOf : UID → String} {dc dc' : DatapointCache}

/-- Consistency carries over to a cache whose records have the same link properties under the
same keys, with the same kinds. -/
theorem Consistent.of_agree (h : Consistent links dc)
    (hkinds : ∀ x ∈ dc'.dimPropCache, dc'.uidKindCache.getD x "" = dc.uidKindCache.getD x "")
    (hprops : ∀ l ∈ links,
      ∀ p ∈ [l.sourceProperty, l.sourceJoinKey, l.targetJoinKey, l.targetProperty], ∀ x,
        propOf dc'.dimPropCache x p = propOf dc.dimPropCache x p) :
    Consistent links dc' := by
  intro l hl t s hkt hks v hv hsv htv
  have hp := hprops l hl
  rw [hkinds t (mem_of_propOf_eq_some htv)] at hkt
  rw [hkinds s (mem_of_propOf_eq_some hsv)] at hks
  rw [hp l.sourceJoinKey (by simp)] at hsv
  rw [hp l.targetJoinKey (by simp)] at htv
  rw [hp l.targetProperty (by simp), hp l.sourceProperty (by simp)]
  exact h l hl t s hkt hks v hv hsv htv

theorem getD_resolveService {psc : PodServiceCache} {podUID : UID} {d : DimProperties}
    (hp : p ≠ "service") :
    (resolveService psc podUID d).properties.getD p "" = d.properties.getD p "" := by
  unfold resolveService servicePropsFor
  split
  · rw [getD_erase, if_neg hp]
  · exact getD_insert_of_ne _ _ _ hp

/-- The service updates touch no property of independent links. -/
theorem ResolvesServiceProps.consistent {podUIDs : List UID}
    (hres : ResolvesServiceProps dc podUIDs dc') (hl : Independent links)
    (h : Consistent links dc) : Consistent links dc' :=
  h.of_agree (fun x _ => by rw [hres.uidKindCache]) fun l hmem p hp x => by
    have hps : p ≠ "service" := fun h' => hl.service l hmem (h' ▸ hp)
    unfold propOf
    rw [hres.lookup]
    split_ifs
    · cases dc.dimPropCache.lookup x <;> simp [getD_resolveService hps]
    · rfl

theorem Consistent.recordKind (h : Consistent links dc) {key : UID} {kind : String}
    (hkey : key ∈ dc.dimPropCache → dc.uidKindCache.getD key "" = kind) :
    Consistent links { dc with uidKindCache := dc.uidKindCache.insert key kind } := by
  refine h.of_agree (fun x hx => ?_) fun _ _ _ _ _ => rfl
  by_cases hxk : x = key
  · subst hxk
    rw [getD_insert_self, hkey hx]
  · exact getD_insert_of_ne _ _ _ hxk

/-- The store step keeps independent links consistent, when it records under a key with a
record the kind it already has, and leaves their sources unique. -/
theorem Consistent.storeAdd (hl : Independent links) (h : Consistent links dc) {key : UID}
    {dps : Option (List Datapoint)} {dimProps : Option DimProperties} {kind : String}
    (hk : kind ≠ "") (hkey : key ∈ dc.dimPropCache → dc.uidKindCache.getD key "" = kind)
    (hu : ∀ l ∈ links, UniqueSource l (dc.storeAdd links key dps dimProps kind).uidKindCache
      (dc.storeAdd links key dps dimProps kind).dimPropCache) :
    Consistent links (dc.storeAdd links key dps dimProps kind) := by
  cases dps <;> cases dimProps <;>
    simp only [DatapointCache.storeAdd, ne_eq, hk, not_false_eq_true, ↓reduceIte] at hu ⊢
  all_goals first
    | exact h.recordKind hkey
    | exact Consistent.addDimPropsToCache hl (h.recordKind hkey) hu

theorem Inv.getD_kind (hinv : dc.Inv kindOf) {x : UID} (hx : x ∈ dc.dimPropCache) :
    dc.uidKindCache.getD x "" = kindOf x := by
  obtain ⟨k, hk⟩ := Option.isSome_iff_exists.1 (AList.lookup_isSome.2 (hinv.rec_kind x hx))
  rw [getD_of_lookup_eq_some hk, hinv.kinds x k hk]

theorem Consistent.handleAdd (hl : Independent links) (h : Consistent links dc)
    (hinv : dc.Inv kindOf) {obj : Object} (he : (Event.add obj).Agrees kindOf)
    {r : DatapointCache × Option UID} (hr : dc.handleAdd dv links obj = some r)
    (hu : ∀ l ∈ links, UniqueSource l r.1.uidKindCache r.1.dimPropCache) :
    Consistent links r.1 := by
  rcases handleAdd_cases hr with ⟨o, rfl, hr1⟩ | ⟨o, dc₁, rfl, hdc₁, hr1⟩ |
    ⟨u, k, dps, dimProps, hobj, -, -, hr1⟩ | hr1 <;> rw [hr1] at hu ⊢
  · have h' : Consistent links { dc with podServiceCache := dc.podServiceCache.setPod o } := h
    exact Consistent.storeAdd hl h' (by decide)
      (fun hx => (hinv.getD_kind hx).trans (he _ _ rfl)) hu
  · have hres := ResolvesServiceProps.of_updateServicePropForPods hdc₁
    refine Consistent.storeAdd hl (hres.consistent hl h) (by decide) (fun hx => ?_) hu
    rw [hres.uidKindCache]
    exact (hinv.getD_kind (hres.mem_dimPropCache.1 hx)).trans (he _ _ rfl)
  · exact Consistent.storeAdd hl h (kind_ne_empty_of_uidKind hobj)
      (fun hx => (hinv.getD_kind hx).trans (he _ _ hobj)) hu
  · exact h

theorem Consistent.purge (h : Consistent links dc) (key : UID) :
    Consistent links { dc with
      uidKindCache := dc.uidKindCache.erase key
      dpCache := dc.dpCache.erase key
      dimPropCache := dc.dimPropCache.erase key } := by
  intro l hl t s hkt hks v hv hsv htv
  dsimp only at hkt hks hsv htv ⊢
  have ht : t ≠ key := fun h' => by simp [propOf_erase, h'] at htv
  have hs : s ≠ key := fun h' => by simp [propOf_erase, h'] at hsv
  rw [getD_erase, if_neg ht] at hkt
  rw [getD_erase, if_neg hs] at hks
  simp only [propOf_erase, if_neg ht, if_neg hs] at hsv htv ⊢
  exact h l hl t s hkt hks v hv hsv htv

theorem Consistent.deleteByKey (hl : Independent links) (h : Consistent links dc) {key : UID}
    (hd : dc.deleteByKey key = some dc') : Consistent links dc' := by
  obtain ⟨dc₁, hcases, rfl⟩ := deleteByKey_cases hd
  refine Consistent.purge ?_ key
  rcases hcases with ⟨-, rfl⟩ | ⟨-, hdc₁⟩ | ⟨-, -, rfl⟩
  · exact h
  · exact (ResolvesServiceProps.of_updateServicePropForPods hdc₁).consistent hl h
  · exact h

theorem Consistent.handleDelete (hl : Independent links) (h : Consistent links dc)
    {obj : Object} {r : DatapointCache × Option UID} (hr : dc.handleDelete obj = some r) :
    Consistent links r.1 := by
  unfold DatapointCache.handleDelete at hr
  split at hr
  · cases hr
    exact h
  · obtain ⟨dc', hd, rfl⟩ := Option.map_eq_some'.1 hr
    exact h.deleteByKey hl hd

theorem Consistent.step (hl : Independent links) (h : Consistent links dc) (hinv : dc.Inv kindOf)
    {e : Event} (he : e.Agrees kindOf) (hs : dc.step dv links e = some dc')
    (hu : ∀ l ∈ links, UniqueSource l dc'.uidKindCache dc'.dimPropCache) :
    Consistent links dc' := by
  cases e with
  | add obj =>
      obtain ⟨r, hr, rfl⟩ := Option.map_eq_some'.1 hs
      exact h.handleAdd hl hinv he hr hu
  | delete obj =>
      obtain ⟨r, hr, rfl⟩ := Option.map_eq_some'.1 hs
      exact h.handleDelete hl hr

theorem Consistent.run (hl : Independent links) (h : Consistent links dc) (hinv : dc.Inv kindOf)
    {events : List Event} (he : ∀ e ∈ events, e.Agrees kindOf)
    (hu : ∀ n σ, dc.run dv links (events.take n) = some σ →
      ∀ l ∈ links, UniqueSource l σ.uidKindCache σ.dimPropCache)
    (hr : dc.run dv links events = some dc') : Consistent links dc' := by
  induction events generalizing dc with
  | nil =>
      cases hr
      exact h
  | cons e es ih =>
      simp only [DatapointCache.run, List.foldlM_cons, Option.bind_eq_bind,
        Option.bind_eq_some] at hr
      obtain ⟨dc₁, h₁, h₂⟩ := hr
      have he₁ := he e (List.mem_cons_self _ _)
      have hu₁ := hu 1 dc₁ (by simp [DatapointCache.run, h₁])
      refine ih (h.step hl hinv he₁ h₁ hu₁) (hinv.step he₁ h₁)
        (fun e' h' => he e' (List.mem_cons_of_mem _ h')) (fun n σ hσ => hu (n + 1) σ ?_) h₂
      simpa [DatapointCache.run, h₁] using hσ

/-- Unique sources in every state of a run, checked state by state. -/
theorem uniqueSources_of_check {dc : DatapointCache} {events : List Event}
    (h : ∀ n, ((dc.run dv links (events.take n)).all fun τ =>
      links.all fun l => uniqueSourceCheck l τ.uidKindCache τ.dimPropCache) = true) :
    ∀ n σ, dc.run dv links (events.take n) = some σ →
      ∀ l ∈ links, UniqueSource l σ.uidKindCache σ.dimPropCache := by
  intro n σ hσ l hl
  have hn := h n
  rw [hσ] at hn
  simp only [Option.all_some, List.all_eq_true] at hn
  exact uniqueSource_of_check (hn l hl)

/-- Derivations whose pod, deployment and ReplicaSet records carry the object's labels as their
properties. -/
def labelRecords : Derivations :=
  { podRecordsOnly with
    dimPropsForPod := fun o => some ⟨⟨"kubernetes_pod_uid", o.uid⟩, o.labels.getD ∅, ∅⟩
    dimPropsForDeployment := fun o =>
      some ⟨⟨"kubernetes_uid", o.uid⟩, o.labels.getD ∅, ∅⟩
    dimPropsForReplicaSet := fun o =>
      some ⟨⟨"kubernetes_uid", o.uid⟩, o.labels.getD ∅, ∅⟩ }

/-- A link from the pods' service property: adding the service sets the property on the pod
without running the links, so the deployment matching the pod keeps the empty value it took when
the pod was added, though the link's sources are unique in every state. -/
theorem service_update_bypasses_links :
    let link : PropertyLink := ⟨"service", "Pod", "app", "service", "Deployment", "app"⟩
    let web : Labels := (∅ : Labels).insert "app" "web"
    let events := [Event.add (.deployment ⟨⟨"d", "web", "ns", some web, none⟩, []⟩),
      .add (.pod ⟨⟨"p", "web-1", "ns", some web, none⟩, []⟩),
      .add (.service ⟨⟨"s", "websvc", "ns", none, none⟩, some web⟩)]
    OneKindPerUID events ∧
      (∀ n σ, (newDatapointCache false).run labelRecords [link] (events.take n) = some σ →
        ∀ l ∈ [link], UniqueSource l σ.uidKindCache σ.dimPropCache) ∧
      ∃ σ, (newDatapointCache false).run labelRecords [link] events = some σ ∧
        propOf σ.dimPropCache "d" "service" = some "" ∧
        propOf σ.dimPropCache "p" "service" = some "websvc" ∧
        ¬Consistent [link] σ := by
  intro link web events
  refine ⟨⟨fun u => if u = "d" then "Deployment" else if u = "p" then "Pod" else "Service",
      ?_⟩,
    uniqueSources_of_check fun n => ?_, _, Option.eq_some_of_isSome (by decide), by decide,
    by decide, fun h => ?_⟩
  · rintro obj hobj u k hu
    simp only [events, List.mem_cons, Event.add.injEq, List.not_mem_nil, or_false] at hobj
    rcases hobj with rfl | rfl | rfl <;> cases hu <;> rfl
  · rcases n with _ | _ | _ | n <;>
      simp only [events, List.take_succ_cons, List.take_zero, List.take_nil] <;> decide
  · exact absurd (h link (List.mem_singleton_self _) "d" "p" (by decide) (by decide) "web"
      (by decide) (by decide) (by decide)) (by decide)

/-- With independent links in place of the literal, in a run where each UID is carried by
objects of one kind and the sources of the links are unique in every state it passes through,
every cached target holds the source property of the cached source it matches. -/
theorem links_consistent_over_runs (dv : Derivations) (b : Bool) {links : List PropertyLink}
    (hl : Independent links) (events : List Event) (hkinds : OneKindPerUID events)
    (hu : ∀ n σ, (newDatapointCache b).run dv links (events.take n) = some σ →
      ∀ l ∈ links, UniqueSource l σ.uidKindCache σ.dimPropCache)
    {σ : DatapointCache} (hσ : (newDatapointCache b).run dv links events = some σ) :
    Consistent links σ := by
  obtain ⟨kindOf, hk⟩ := hkinds
  have h₀ : (newDatapointCache b).Inv kindOf := inv_newDatapointCache b
  have hc₀ : Consistent links (newDatapointCache b) := fun _ _ _ _ _ _ _ _ hsv => by
    simp [propOf, newDatapointCache] at hsv
  exact hc₀.run hl h₀ (agrees_of_kindsAgree hk) hu hσ

theorem links_consistent_over_runs_of_replica_set :
    let rs : Resource := ⟨⟨"rs", "web-rs", "ns",
      some (((∅ : Labels).insert "name" "web-rs").insert "deployment" "web"), none⟩, []⟩
    let pod : Resource :=
      ⟨⟨"p", "web-1", "ns", some ((∅ : Labels).insert "replicaSet" "web-rs"), none⟩, []⟩
    let events := [Event.add (.pod pod), .add (.replicaSet rs)]
    Independent [replicaSetToPod] ∧
      ∃ σ, (newDatapointCache false).run labelRecords [replicaSetToPod] events = some σ ∧
        Consistent [replicaSetToPod] σ := by
  intro rs pod events
  have hl : Independent [replicaSetToPod] := ⟨by decide, by decide, by decide, by decide⟩
  have hrun := Option.eq_some_of_isSome
    (o := (newDatapointCache false).run labelRecords [replicaSetToPod] events) (by decide)
  refine ⟨hl, _, hrun, links_consistent_over_runs labelRecords false hl events
    ⟨fun u => if u = "rs" then "ReplicaSet" else "Pod", ?_⟩
    (uniqueSources_of_check fun n => ?_) hrun⟩
  · rintro obj hobj u k hu
    simp only [events, List.mem_cons, Event.add.injEq, List.not_mem_nil, or_false] at hobj
    rcases hobj with rfl | rfl <;> cases hu <;> rfl
  · rcases n with _ | _ | n <;>
      simp only [events, List.take_succ_cons, List.take_zero, List.take_nil] <;> decide

end DatapointCache

end ClusterCache
