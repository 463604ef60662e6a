import Mathlib.Data.List.AList

/-!
# Go maps

A Go `map[K]V` is an association list with distinct keys. Reading a missing key gives the zero
value, an assignment replaces, and `delete` of a missing key does nothing. Go enumerates a map
in an unspecified order; the model enumerates `entries` or `keys`, and every lemma about a loop
below is stated for an arbitrary list, so that it holds for whichever order the runtime picks.

The sets of the join index (`svcSet`, `podsSet`, both `map[types.UID]bool`) are maps to `Bool`
of which only the keys are read. A map of such sets is written through `addTo` and
`removeFrom`, the two idioms of the source: create the inner set before the first write, and
delete from an inner set that may be missing.
-/

namespace ClusterCache

/-- A Go `map[K]V`. -/
abbrev GoMap (K V : Type) := AList fun _ : K => V

/-- A Go set `map[K]bool`. -/
abbrev GoSet (K : Type) := GoMap K Bool

namespace GoMap

variable {K K' V : Type} [DecidableEq K] [DecidableEq K']

/-- `m[k]`: the value stored under `k`, or the zero value `zero` when `k` is missing. -/
def getD (m : GoMap K V) (k : K) (zero : V) : V :=
  (m.lookup k).getD zero

@[simp]
theorem getD_insert_self (m : GoMap K V) (k : K) (v zero : V) : getD (m.insert k v) k zero = v := by
  simp [getD]

theorem getD_insert_of_ne (m : GoMap K V) {k k' : K} (v zero : V) (h : k' ≠ k) :
    getD (m.insert k v) k' zero = m.getD k' zero := by
  simp [getD, AList.lookup_insert_ne h]

theorem getD_erase (m : GoMap K V) (k k' : K) (zero : V) :
    getD (m.erase k) k' zero = if k' = k then zero else m.getD k' zero := by
  split_ifs with h
  · subst h
    simp [getD]
  · simp [getD, AList.lookup_erase_ne h]

theorem lookup_eq_some_of_getD {m : GoMap K V} {k : K} {zero v : V} (h : m.getD k zero = v)
    (hv : v ≠ zero) : m.lookup k = some v := by
  unfold getD at h
  cases hk : m.lookup k <;> simp_all

theorem getD_of_lookup_eq_some {m : GoMap K V} {k : K} {zero v : V} (h : m.lookup k = some v) :
    m.getD k zero = v := by
  simp [getD, h]

theorem erase_of_not_mem {m : GoMap K V} {k : K} (h : k ∉ m) : m.erase k = m :=
  AList.ext (List.kerase_of_not_mem_keys fun h' => h (AList.mem_keys.1 h'))

/-- Deleting a key just assigned for the first time gives the map back. -/
theorem erase_insert_of_not_mem {m : GoMap K V} {k : K} (h : k ∉ m) (v : V) :
    (m.insert k v).erase k = m :=
  AList.ext (by
    show List.kerase k (m.insert k v).entries = m.entries
    rw [AList.insert_entries_of_neg h]
    exact List.kerase_cons_eq rfl)

@[simp]
theorem erase_erase_self (m : GoMap K V) (k : K) : (m.erase k).erase k = m.erase k :=
  erase_of_not_mem fun h => (AList.mem_erase.1 h).1 rfl

/-! ### Deep equality -/

section DeepEqual

variable [DecidableEq V]

/-- `reflect.DeepEqual` on two non-nil maps: the same length, and every key of the first bound
to an equal value in the second. -/
def deepEqual (a b : GoMap K V) : Bool :=
  a.entries.length == b.entries.length && a.entries.all fun e => b.lookup e.1 == some e.2

/-- `reflect.DeepEqual` on maps that may be nil: a nil map is equal to a nil map only. -/
def deepEqualNil : Option (GoMap K V) → Option (GoMap K V) → Bool
  | none, none => true
  | some a, some b => deepEqual a b
  | _, _ => false

/-- Deep equality of two maps is equality of their contents. -/
theorem deepEqual_iff {a b : GoMap K V} : deepEqual a b = true ↔ ∀ k, a.lookup k = b.lookup k := by
  simp only [deepEqual, Bool.and_eq_true, beq_iff_eq, List.all_eq_true]
  constructor
  · rintro ⟨hlen, hall⟩ k
    have hsub : a.entries ⊆ b.entries := fun e he =>
      AList.mem_lookup_iff.1 (by simpa using hall e he)
    exact AList.perm_lookup ((List.subperm_of_subset a.nodupKeys.nodup hsub).perm_of_length_le
      hlen.ge)
  · intro h
    have hperm : a.entries.Perm b.entries := List.lookup_ext a.nodupKeys b.nodupKeys
      fun x y => by change y ∈ a.lookup x ↔ y ∈ b.lookup x; rw [h x]
    refine ⟨hperm.length_eq, fun e he => ?_⟩
    rw [← h]
    exact AList.mem_lookup_iff.2 he

theorem deepEqual_self (a : GoMap K V) : deepEqual a a = true :=
  deepEqual_iff.2 fun _ => rfl

theorem deepEqual_comm (a b : GoMap K V) : deepEqual a b = deepEqual b a :=
  Bool.eq_iff_iff.2 (by
    rw [deepEqual_iff, deepEqual_iff]
    exact ⟨fun h k => (h k).symm, fun h k => (h k).symm⟩)

theorem deepEqual_trans {a b c : GoMap K V} (h₁ : deepEqual a b = true)
    (h₂ : deepEqual b c = true) : deepEqual a c = true :=
  deepEqual_iff.2 fun k => (deepEqual_iff.1 h₁ k).trans (deepEqual_iff.1 h₂ k)

theorem deepEqualNil_comm (a b : Option (GoMap K V)) : deepEqualNil a b = deepEqualNil b a := by
  cases a <;> cases b <;> simp [deepEqualNil, deepEqual_comm]

theorem deepEqualNil_trans {a b c : Option (GoMap K V)} (h₁ : deepEqualNil a b = true)
    (h₂ : deepEqualNil b c = true) : deepEqualNil a c = true := by
  cases a <;> cases b <;> cases c <;> simp only [deepEqualNil, reduceCtorEq] at h₁ h₂ ⊢
  exact deepEqual_trans h₁ h₂

theorem deepEqualNil_self (a : Option (GoMap K V)) : deepEqualNil a a = true := by
  cases a
  · rfl
  · exact deepEqual_self _

end DeepEqual

/-! ### Maps of sets -/

/-- `x ∈ m[k]`, a missing inner set read as empty. -/
def Has (m : GoMap K (GoSet K')) (k : K) (x : K') : Prop :=
  x ∈ (m.lookup k).getD ∅

instance (m : GoMap K (GoSet K')) (k : K) (x : K') : Decidable (m.Has k x) :=
  inferInstanceAs (Decidable (x ∈ (m.lookup k).getD ∅))

/-- `if _, ok := m[k]; !ok { m[k] = make(map[K']bool) }; m[k][x] = true`. -/
def addTo (m : GoMap K (GoSet K')) (k : K) (x : K') : GoMap K (GoSet K') :=
  m.insert k (((m.lookup k).getD ∅).insert x true)

/-- `delete(m[k], x)`, which does nothing when `m[k]` is missing. -/
def removeFrom (m : GoMap K (GoSet K')) (k : K) (x : K') : GoMap K (GoSet K') :=
  match m.lookup k with
  | some s => m.insert k (s.erase x)
  | none => m

/-- The cascade of a delete from the join index: drop `k`'s own set from `forward` and remove
`k` from the `reverse` set of each of its members. -/
def unlink (forward reverse : GoMap K (GoSet K)) (k : K) : GoMap K (GoSet K) × GoMap K (GoSet K) :=
  match forward.lookup k with
  | none => (forward, reverse)
  | some s => (forward.erase k, s.keys.foldl (fun r x => removeFrom r x k) reverse)

variable {m : GoMap K (GoSet K')} {s : GoSet K'} {k k' : K} {x x' : K'}

omit [DecidableEq K'] in
@[simp]
theorem not_has_empty : ¬(∅ : GoMap K (GoSet K')).Has k x := by
  simp [Has]

omit [DecidableEq K'] in
@[simp]
theorem has_insert : Has (m.insert k s) k' x ↔ if k' = k then x ∈ s else m.Has k' x := by
  by_cases h : k' = k
  · subst h; simp [Has]
  · simp [Has, h, AList.lookup_insert_ne h]

omit [DecidableEq K'] in
@[simp]
theorem has_erase : Has (m.erase k) k' x ↔ k' ≠ k ∧ m.Has k' x := by
  by_cases h : k' = k
  · subst h; simp [Has]
  · simp [Has, h, AList.lookup_erase_ne h]

@[simp]
theorem has_addTo : (m.addTo k x).Has k' x' ↔ (k' = k ∧ x' = x) ∨ m.Has k' x' := by
  by_cases h : k' = k
  · subst h; simp [addTo, Has, or_comm]
  · simp [addTo, h]

@[simp]
theorem mem_addTo : k' ∈ m.addTo k x ↔ k' = k ∨ k' ∈ m := by
  simp [addTo]

@[simp]
theorem has_removeFrom : (m.removeFrom k x).Has k' x' ↔ ¬(k' = k ∧ x' = x) ∧ m.Has k' x' := by
  unfold removeFrom
  split <;> rename_i h
  · by_cases hk : k' = k
    · subst hk; simp [Has, h, and_comm]
    · simp [hk]
  · have : ¬m.Has k x' := by simp [Has, h]
    by_cases hk : k' = k
    · subst hk; simp [this]
    · simp [hk]

@[simp]
theorem mem_removeFrom : k' ∈ m.removeFrom k x ↔ k' ∈ m := by
  unfold removeFrom
  split <;> rename_i h
  · simp only [AList.mem_insert, or_iff_right_iff_imp]
    rintro rfl
    exact AList.lookup_isSome.1 (by simp [h])
  · rfl

theorem has_foldl_addTo (xs : List K) (r : GoMap K (GoSet K')) (a : K) (b : K') :
    Has (xs.foldl (fun r y => addTo r y x) r) a b ↔ r.Has a b ∨ (a ∈ xs ∧ b = x) := by
  induction xs generalizing r with
  | nil => simp
  | cons y ys ih =>
      simp only [List.foldl_cons, ih, has_addTo, List.mem_cons, or_and_right, or_assoc,
        or_left_comm]

theorem has_foldl_removeFrom (xs : List K) (r : GoMap K (GoSet K')) (a : K) (b : K') :
    Has (xs.foldl (fun r y => removeFrom r y x) r) a b ↔ r.Has a b ∧ ¬(a ∈ xs ∧ b = x) := by
  induction xs generalizing r with
  | nil => simp
  | cons y ys ih =>
      simp only [List.foldl_cons, ih, has_removeFrom, List.mem_cons, or_and_right, not_or,
        and_assoc]
      exact and_left_comm

theorem mem_foldl_removeFrom (xs : List K) (r : GoMap K (GoSet K')) (a : K) :
    a ∈ xs.foldl (fun r y => removeFrom r y x) r ↔ a ∈ r := by
  induction xs generalizing r with
  | nil => rfl
  | cons y ys ih => simp [ih]

omit [DecidableEq K'] in
theorem mem_of_has (h : m.Has k x) : k ∈ m := by
  unfold Has at h
  cases hk : m.lookup k
  · simp [hk] at h
  · exact AList.lookup_isSome.1 (by simp [hk])

section Unlink

variable {f r : GoMap K (GoSet K)} {k a b : K}

theorem has_unlink_fst : (unlink f r k).1.Has a b ↔ a ≠ k ∧ f.Has a b := by
  unfold unlink
  split <;> rename_i h
  · refine ⟨fun hab => ⟨?_, hab⟩, And.right⟩
    rintro rfl
    exact AList.lookup_eq_none.1 h (mem_of_has hab)
  · exact has_erase

theorem mem_unlink_fst : a ∈ (unlink f r k).1 ↔ a ≠ k ∧ a ∈ f := by
  unfold unlink
  split <;> rename_i h
  · refine ⟨fun ha => ⟨?_, ha⟩, And.right⟩
    rintro rfl
    exact AList.lookup_eq_none.1 h ha
  · exact AList.mem_erase

theorem has_unlink_snd : (unlink f r k).2.Has a b ↔ r.Has a b ∧ ¬(f.Has k a ∧ b = k) := by
  unfold unlink
  split <;> rename_i h
  · simp [Has, h]
  · rw [has_foldl_removeFrom, ← AList.mem_keys]
    simp [Has, h]

theorem mem_unlink_snd : a ∈ (unlink f r k).2 ↔ a ∈ r := by
  unfold unlink
  split
  · rfl
  · exact mem_foldl_removeFrom _ _ _

end Unlink

end GoMap

end ClusterCache
