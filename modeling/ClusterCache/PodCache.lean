import ClusterCache.Resources

/-!
# The pod and service caches

`ServiceCache` and `PodCache` of the agent's kubernetes utilities keep, per UID, the fields their
monitors compare to tell a changed object from one already seen: a service's selector, name and
namespace, and a pod's labels, namespace and owner references. `PodCache` also indexes its pods
by namespace, and `GetMatchingServices` records, in the service cache, the pod in the pod set of
every cached service whose selector matches it.

A missing key reads as Go's zero value: the empty string, or a nil label set, slice or selector.
Writing into the pod set of a service the service cache does not hold is an assignment to an
entry of a nil Go map, a panic, which the model returns as `none`.
-/

namespace ClusterCache

open GoMap

structure ServiceCache where
  svcUIDNamespaceCache : GoMap UID String
  svcUIDNameCache : GoMap UID String
  svcUIDSelectorCache : GoMap UID Selector
  svcUIDPodsCache : GoMap UID (GoSet UID)

def newServiceCache : ServiceCache :=
  ⟨∅, ∅, ∅, ∅⟩

namespace ServiceCache

/-- `IsCached`: the service's selector, name and namespace are deeply equal to the cached ones. A
missing selector is a nil interface, which no selector built from a set is deeply equal to. -/
def isCached (sc : ServiceCache) (svc : Service) : Bool :=
  let selector := asSelectorPreValidated svc.selector
  (match sc.svcUIDSelectorCache.lookup svc.uid with
    | some cachedSelector => deepEqual cachedSelector selector
    | none => false) &&
    sc.svcUIDNameCache.getD svc.uid "" == svc.name &&
    sc.svcUIDNamespaceCache.getD svc.uid "" == svc.ns

def addService (sc : ServiceCache) (svc : Service) : ServiceCache :=
  let selector := asSelectorPreValidated svc.selector
  if selector.empty then sc
  else
    { svcUIDPodsCache := sc.svcUIDPodsCache.insert svc.uid ∅
      svcUIDNamespaceCache := sc.svcUIDNamespaceCache.insert svc.uid svc.ns
      svcUIDSelectorCache := sc.svcUIDSelectorCache.insert svc.uid selector
      svcUIDNameCache := sc.svcUIDNameCache.insert svc.uid svc.name }

def deleteByKey (sc : ServiceCache) (key : UID) : ServiceCache × List UID :=
  ({ svcUIDPodsCache := sc.svcUIDPodsCache.erase key
     svcUIDNamespaceCache := sc.svcUIDNamespaceCache.erase key
     svcUIDSelectorCache := sc.svcUIDSelectorCache.erase key
     svcUIDNameCache := sc.svcUIDNameCache.erase key },
    match sc.svcUIDPodsCache.lookup key with
    | some pods => pods.keys
    | none => [])

def delete (sc : ServiceCache) (svc : Service) : ServiceCache :=
  (sc.deleteByKey svc.uid).1

end ServiceCache

structure PodCache where
  namespacePodUIDCache : GoMap String (GoSet UID)
  podUIDNamespaceCache : GoMap UID String
  podUIDLabelCache : GoMap UID (Option Labels)
  podUIDORCache : GoMap UID (Option (List OwnerReference))

def newPodCache : PodCache :=
  ⟨∅, ∅, ∅, ∅⟩

namespace PodCache

/-- `IsCached`: the pod's label set, namespace and owner references are deeply equal to the
cached ones, a missing entry read as a nil set, the empty namespace and a nil slice. -/
def isCached (pc : PodCache) (pod : Resource) : Bool :=
  deepEqualNil (pc.podUIDLabelCache.getD pod.uid none) pod.labels &&
    pc.podUIDNamespaceCache.getD pod.uid "" == pod.ns &&
    pc.podUIDORCache.getD pod.uid none == pod.ownerReferences

def addPod (pc : PodCache) (pod : Resource) : PodCache :=
  { namespacePodUIDCache := pc.namespacePodUIDCache.addTo pod.ns pod.uid
    podUIDNamespaceCache := pc.podUIDNamespaceCache.insert pod.uid pod.ns
    podUIDLabelCache := pc.podUIDLabelCache.insert pod.uid pod.labels
    podUIDORCache := pc.podUIDORCache.insert pod.uid pod.ownerReferences }

def deleteByKey (pc : PodCache) (key : UID) : PodCache :=
  let ns := pc.podUIDNamespaceCache.getD key ""
  { pc with
    namespacePodUIDCache := pc.namespacePodUIDCache.removeFrom ns key
    podUIDNamespaceCache := pc.podUIDNamespaceCache.erase key
    podUIDLabelCache := pc.podUIDLabelCache.erase key }

def getLabels (pc : PodCache) (key : UID) : Option Labels :=
  pc.podUIDLabelCache.getD key none

def getOwnerReferences (pc : PodCache) (key : UID) : Option (List OwnerReference) :=
  pc.podUIDORCache.getD key none

def getPodsInNamespace (pc : PodCache) (ns : String) : List UID :=
  match pc.namespacePodUIDCache.lookup ns with
  | some podsSet => podsSet.keys
  | none => []

/-- One iteration of `GetMatchingServices`, at the cached service `e`: a service in the pod's
namespace whose selector matches its labels gets the pod in its pod set, and its name is
appended to the result; a write into a missing pod set panics. -/
def matchStep (pc : PodCache) (podUID : UID) (labelSet : Option Labels)
    (acc : ServiceCache × List String) (e : Σ _ : UID, Selector) :
    Option (ServiceCache × List String) :=
  let sc := acc.1
  if e.2.matches labelSet &&
      sc.svcUIDNamespaceCache.getD e.1 "" == pc.podUIDNamespaceCache.getD podUID "" then
    match sc.svcUIDPodsCache.lookup e.1 with
    | some pods =>
        some
          ({ sc with svcUIDPodsCache := sc.svcUIDPodsCache.insert e.1 (pods.insert podUID true) },
            acc.2 ++ [sc.svcUIDNameCache.getD e.1 ""])
    | none => none
  else some acc

def getMatchingServices (pc : PodCache) (podUID : UID) (sc : ServiceCache) :
    Option (ServiceCache × List String) :=
  match pc.podUIDLabelCache.lookup podUID with
  | some labelSet => sc.svcUIDSelectorCache.entries.foldlM (pc.matchStep podUID labelSet) (sc, [])
  | none => some (sc, [])

end PodCache

/-! ### Sequences of calls -/

inductive PodCall where
  | addPod (pod : Resource)
  | deleteByKey (key : UID)

def PodCache.apply (pc : PodCache) : PodCall → PodCache
  | .addPod pod => pc.addPod pod
  | .deleteByKey key => pc.deleteByKey key

def runPodCalls (calls : List PodCall) : PodCache :=
  calls.foldl PodCache.apply newPodCache

/-- A call that writes into a service cache: one of its own, or `GetMatchingServices` of a pod
cache, with that cache. -/
inductive ServiceCall where
  | addService (svc : Service)
  | delete (svc : Service)
  | deleteByKey (key : UID)
  | getMatchingServices (pc : PodCache) (podUID : UID)

def ServiceCache.apply (sc : ServiceCache) : ServiceCall → Option ServiceCache
  | .addService svc => some (sc.addService svc)
  | .delete svc => some (sc.delete svc)
  | .deleteByKey key => some (sc.deleteByKey key).1
  | .getMatchingServices pc podUID => (pc.getMatchingServices podUID sc).map Prod.fst

def runServiceCalls (calls : List ServiceCall) : Option ServiceCache :=
  calls.foldlM ServiceCache.apply newServiceCache

end ClusterCache
