import ClusterCache.GoMap

/-!
# Cluster resources

The parts of a K8s object the cache reads itself: the embedded object metadata, a service's
selector, and the type the informer's object has. Everything else an object carries is read
only by the sample derivations, which are not part of this development; a resource keeps it as
an opaque `status`.

A nil label map or owner-reference slice is kept apart from an empty one (`none` against
`some []`), because the change detection compares them with `reflect.DeepEqual`, which does.
-/

namespace ClusterCache

abbrev UID := String

abbrev Labels := GoMap String String

structure OwnerReference where
  apiVersion : String
  kind : String
  name : String
  uid : UID
  controller : Option Bool
  blockOwnerDeletion : Option Bool
  deriving DecidableEq

/-- The embedded `metav1.ObjectMeta`, reduced to the fields the cache reads. -/
structure ObjectMeta where
  uid : UID
  name : String
  ns : String
  labels : Option Labels
  ownerReferences : Option (List OwnerReference)

/-- An object of one of the handled kinds other than a service. -/
structure Resource extends ObjectMeta where
  status : List (String × String)

structure Service extends ObjectMeta where
  selector : Option Labels

/-- The object an informer hands to the cache: one of the nine handled types, or any other
object, which may or may not carry object metadata. -/
inductive Object where
  | pod (o : Resource)
  | namespace' (o : Resource)
  | replicationController (o : Resource)
  | daemonSet (o : Resource)
  | deployment (o : Resource)
  | replicaSet (o : Resource)
  | resourceQuota (o : Resource)
  | node (o : Resource)
  | service (o : Service)
  | other (objectMeta : Option ObjectMeta)

/-! ### Selectors -/

/-- A selector built by `labels.Set(s).AsSelectorPreValidated()`. The source's value is the
slice of `Equals` requirements sorted by key, a canonical form of the set, so the set stands for
it: two selectors are `reflect.DeepEqual` exactly when their sets have the same contents. -/
abbrev Selector := Labels

/-- `labels.Set(s).AsSelectorPreValidated()`; a nil set gives the empty selector. -/
def asSelectorPreValidated (s : Option Labels) : Selector :=
  s.getD ∅

/-- `Selector.Empty()`: the selector has no requirement. -/
def Selector.empty (selector : Selector) : Bool :=
  selector.entries.isEmpty

/-- `Selector.Matches(labelSet)`: every requirement `key = value` has `key` in the set with
that value. A nil set has no key. -/
def Selector.matches (selector : Selector) (labelSet : Option Labels) : Bool :=
  selector.entries.all fun r => (labelSet.getD ∅).lookup r.1 == some r.2

theorem Selector.matches_iff (selector : Selector) (labelSet : Option Labels) :
    selector.matches labelSet = true ↔
      ∀ k v, selector.lookup k = some v → (labelSet.getD ∅).lookup k = some v := by
  simp only [Selector.matches, List.all_eq_true, beq_iff_eq]
  exact ⟨fun h k v hkv => h ⟨k, v⟩ (AList.mem_lookup_iff.1 hkv),
    fun h e he => h e.1 e.2 (AList.mem_lookup_iff.2 he)⟩

/-- Deeply equal selectors match deeply equal label sets alike. -/
theorem Selector.matches_congr {selector selector' : Selector} {labelSet labelSet' : Option Labels}
    (hs : GoMap.deepEqual selector selector' = true)
    (hl : GoMap.deepEqualNil labelSet labelSet' = true) :
    selector.matches labelSet = selector'.matches labelSet' := by
  have hl' : ∀ k, (labelSet.getD ∅).lookup k = (labelSet'.getD ∅).lookup k := by
    cases labelSet <;> cases labelSet' <;>
      simp_all [GoMap.deepEqualNil, GoMap.deepEqual_iff]
  rw [Bool.eq_iff_iff, Selector.matches_iff, Selector.matches_iff]
  simp only [GoMap.deepEqual_iff.1 hs, hl']

/-- Deeply equal selectors are both empty or both not. -/
theorem Selector.empty_congr {selector selector' : Selector}
    (hs : GoMap.deepEqual selector selector' = true) : selector.empty = selector'.empty := by
  simp only [GoMap.deepEqual, Bool.and_eq_true, beq_iff_eq] at hs
  rw [Selector.empty, Selector.empty, Bool.eq_iff_iff, List.isEmpty_iff_length_eq_zero,
    List.isEmpty_iff_length_eq_zero, hs.1]

/-- A non-empty selector matches no nil label set. -/
theorem Selector.matches_none {selector : Selector} (h : selector.empty = false) :
    selector.matches none = false := by
  obtain ⟨_ | ⟨r, rs⟩, _⟩ := selector
  · simp [Selector.empty] at h
  · simp [Selector.matches]

end ClusterCache
