import ClusterCache.PodServiceCache

/-!
# The datapoint cache

`DatapointCache` of the kubernetes-cluster monitor keeps, per resource UID, the datapoints and
the dimension properties derived from the latest version of the resource, and its kind. Pods and
services also go into the join index, and a pod's record carries the name of one of its services
as its `"service"` property. The lock the cache embeds is the caller's business and is not
modelled; every operation below runs with it held.

The derivations of datapoints and records from a resource's fields are not part of this
development: they are the parameter `Derivations`. A nil slice or a nil record is `none`, and a
record's maps are never nil. A Go panic (a nil-pointer dereference) is the result `none`.

`addDimPropsToCache` is modelled with its link list as a parameter, since its literal is empty;
`propertyLinks` is that literal. Its loops enumerate the cache through `enum`, a function from
the cache to a list of its keys; the code's own order is the one the model keeps, `AList.keys`.
-/

namespace ClusterCache

structure Datapoint where
  metric : String
  dimensions : List (String × String)
  value : Int
  deriving DecidableEq

structure Dimension where
  name : String
  value : String
  deriving DecidableEq

structure DimProperties extends Dimension where
  properties : GoMap String String
  tags : GoMap String Bool

/-- The derivations of the monitor, one per handled kind, from the resource's fields. -/
structure Derivations where
  datapointsForPod : Resource → Option (List Datapoint)
  dimPropsForPod : Resource → Option DimProperties
  datapointsForNamespace : Resource → Option (List Datapoint)
  datapointsForReplicationController : Resource → Option (List Datapoint)
  datapointsForDaemonSet : Resource → Option (List Datapoint)
  datapointsForDeployment : Resource → Option (List Datapoint)
  dimPropsForDeployment : Resource → Option DimProperties
  datapointsForReplicaSet : Resource → Option (List Datapoint)
  dimPropsForReplicaSet : Resource → Option DimProperties
  datapointsForResourceQuota : Resource → Option (List Datapoint)
  datapointsForNode : Resource → Bool → Option (List Datapoint)
  dimPropsForNode : Resource → Bool → Option DimProperties

structure PropertyLink where
  sourceProperty : String
  sourceKind : String
  sourceJoinKey : String
  targetProperty : String
  targetKind : String
  targetJoinKey : String

/-- The link list literal of `addDimPropsToCache`: empty, its one entry commented out. -/
def propertyLinks : List PropertyLink := []

structure DatapointCache where
  dpCache : GoMap UID (List Datapoint)
  dimPropCache : GoMap UID DimProperties
  uidKindCache : GoMap UID String
  podServiceCache : PodServiceCache
  useNodeName : Bool

def newDatapointCache (useNodeName : Bool) : DatapointCache :=
  ⟨∅, ∅, ∅, newPodServiceCache, useNodeName⟩

def keyForObject : Object → Except String UID
  | .pod o | .namespace' o | .replicationController o | .daemonSet o | .deployment o
  | .replicaSet o | .resourceQuota o | .node o => .ok o.uid
  | .service o => .ok o.uid
  | .other (some objectMeta) => .ok objectMeta.uid
  | .other none => .error "K8s object is not of the expected form"

namespace DatapointCache

/-! ### The service property -/

/-- One iteration of `updateServicePropForPods`: the pod's record gets the name its join-index
lookup resolves as `"service"`, or loses `"service"` when the lookup fails. A pod without a
record is a nil-pointer dereference. -/
def updateServicePropForPod (dc : DatapointCache) (podUID : UID) : Option DatapointCache :=
  match dc.dimPropCache.lookup podUID with
  | none => none
  | some dimProps =>
      let properties :=
        match dc.podServiceCache.getServiceNameForPodUID podUID with
        | .error _ => dimProps.properties.erase "service"
        | .ok service => dimProps.properties.insert "service" service
      some { dc with dimPropCache := dc.dimPropCache.insert podUID { dimProps with properties } }

def updateServicePropForPods (dc : DatapointCache) (podUIDs : List UID) : Option DatapointCache :=
  podUIDs.foldlM updateServicePropForPod dc

def handleAddPod (dv : Derivations) (dc : DatapointCache) (pod : Resource) :
    Option (DatapointCache × Option (List Datapoint) × Option DimProperties) :=
  let dps := dv.datapointsForPod pod
  let dimProps := dv.dimPropsForPod pod
  let dc := { dc with podServiceCache := dc.podServiceCache.setPod pod }
  match dc.podServiceCache.getServiceNameForPod pod, dimProps with
  | .error _, _ => some (dc, dps, dimProps)
  | .ok service, some dimProps =>
      some (dc, dps, some { dimProps with
        properties := dimProps.properties.insert "service" service })
  | .ok _, none => none

def handleDeletePod (dc : DatapointCache) (key : UID) : DatapointCache :=
  { dc with podServiceCache := dc.podServiceCache.deletePodFromCache key }

def handleAddService (dc : DatapointCache) (svc : Service) : Option DatapointCache :=
  let dc := { dc with podServiceCache := dc.podServiceCache.setService svc }
  dc.updateServicePropForPods (dc.podServiceCache.getPodUIDsForService svc)

def handleDeleteService (dc : DatapointCache) (key : UID) : Option DatapointCache :=
  let podUIDs := dc.podServiceCache.getPodUIDsForServiceUID key
  { dc with podServiceCache := dc.podServiceCache.deleteServiceFromCache key }.updateServicePropForPods
    podUIDs

/-! ### Property links -/

/-- The first loop of a link, run when the updated record is of the link's target kind: every
cached record of the source kind whose join key is set and equals the updated record's join key
has its source property copied into the updated record. -/
def linkFromSources (link : PropertyLink) (uidKindCache : GoMap UID String)
    (dimPropCache : GoMap UID DimProperties) (order : List UID) (dimProps : DimProperties) :
    DimProperties :=
  order.foldl (fun dimProps cachedKey =>
    match dimPropCache.lookup cachedKey with
    | some cached =>
        if uidKindCache.getD cachedKey "" == link.sourceKind &&
            cached.properties.getD link.sourceJoinKey "" != "" &&
            cached.properties.getD link.sourceJoinKey "" ==
              dimProps.properties.getD link.targetJoinKey "" then
          { dimProps with
            properties :=
              dimProps.properties.insert link.targetProperty
                (cached.properties.getD link.sourceProperty "") }
        else dimProps
    | none => dimProps) dimProps

/-- The second loop of a link, run when the updated record is of the link's source kind: every
cached record of the target kind whose join key is set and equals the updated record's join key
gets the updated record's source property. -/
def linkToTargets (link : PropertyLink) (uidKindCache : GoMap UID String) (order : List UID)
    (dimProps : DimProperties) (dimPropCache : GoMap UID DimProperties) :
    GoMap UID DimProperties :=
  order.foldl (fun cache cachedKey =>
    match cache.lookup cachedKey with
    | some cached =>
        if uidKindCache.getD cachedKey "" == link.targetKind &&
            cached.properties.getD link.targetJoinKey "" != "" &&
            cached.properties.getD link.targetJoinKey "" ==
              dimProps.properties.getD link.sourceJoinKey "" then
          cache.insert cachedKey { cached with
            properties :=
              cached.properties.insert link.targetProperty
                (dimProps.properties.getD link.sourceProperty "") }
        else cache
    | none => cache) dimPropCache

def applyLink (enum : GoMap UID DimProperties → List UID) (uidKindCache : GoMap UID String)
    (key : UID) (acc : DimProperties × GoMap UID DimProperties) (link : PropertyLink) :
    DimProperties × GoMap UID DimProperties :=
  let dimProps :=
    if uidKindCache.getD key "" == link.targetKind then
      linkFromSources link uidKindCache acc.2 (enum acc.2) acc.1
    else acc.1
  let cache :=
    if uidKindCache.getD key "" == link.sourceKind then
      linkToTargets link uidKindCache (enum acc.2) dimProps acc.2
    else acc.2
  (dimProps, cache)

def addDimPropsToCacheBy (enum : GoMap UID DimProperties → List UID) (links : List PropertyLink)
    (dc : DatapointCache) (key : UID) (dimProps : DimProperties) : DatapointCache :=
  let r := links.foldl (applyLink enum dc.uidKindCache key) (dimProps, dc.dimPropCache)
  { dc with dimPropCache := r.2.insert key r.1 }

def addDimPropsToCache (links : List PropertyLink) (dc : DatapointCache) (key : UID)
    (dimProps : DimProperties) : DatapointCache :=
  dc.addDimPropsToCacheBy AList.keys links key dimProps

/-! ### Setting and deleting properties -/

/-- The key's record with its properties mapped by `f`, the write through the cached pointer of
`addPropertiesToDimProps` and `deletePropertiesFromDimProps`; a key without a record is a
nil-pointer dereference. -/
def updateProperties (f : GoMap String String → GoMap String String) (key : UID)
    (dc : DatapointCache) : Option DatapointCache :=
  match dc.dimPropCache.lookup key with
  | none => none
  | some dimProps =>
      some { dc with
        dimPropCache :=
          dc.dimPropCache.insert key { dimProps with properties := f dimProps.properties } }

def addPropertiesToDimPropsBy (es : List (Σ _ : String, String)) (dc : DatapointCache)
    (key : UID) : Option DatapointCache :=
  es.foldlM (fun dc e => dc.updateProperties (fun props => props.insert e.1 e.2) key) dc

def addPropertiesToDimProps (dc : DatapointCache) (key : UID) (newProps : GoMap String String) :
    Option DatapointCache :=
  dc.addPropertiesToDimPropsBy newProps.entries key

def deletePropertiesFromDimProps (dc : DatapointCache) (key : UID) (propsToDelete : List String) :
    Option DatapointCache :=
  propsToDelete.foldlM (fun dc prop => dc.updateProperties (fun props => props.erase prop) key) dc

/-! ### Adding and deleting -/

/-- The type switch of `HandleAdd`: the cache after the kind's own handling, the datapoints, the
record and the kind; `none` inside for an unknown type, `none` outside for a panic. -/
def handleAddSwitch (dv : Derivations) (dc : DatapointCache) :
    Object → Option (Option (DatapointCache × Option (List Datapoint) × Option DimProperties ×
      String))
  | .pod o => (dc.handleAddPod dv o).map fun r => some (r.1, r.2.1, r.2.2, "Pod")
  | .namespace' o => some (some (dc, dv.datapointsForNamespace o, none, "Namespace"))
  | .replicationController o =>
      some (some (dc, dv.datapointsForReplicationController o, none, "ReplicationController"))
  | .daemonSet o => some (some (dc, dv.datapointsForDaemonSet o, none, "DaemonSet"))
  | .deployment o =>
      some (some (dc, dv.datapointsForDeployment o, dv.dimPropsForDeployment o, "Deployment"))
  | .replicaSet o =>
      some (some (dc, dv.datapointsForReplicaSet o, dv.dimPropsForReplicaSet o, "ReplicaSet"))
  | .resourceQuota o => some (some (dc, dv.datapointsForResourceQuota o, none, "ResourceQuota"))
  | .node o => some (some (dc, dv.datapointsForNode o dc.useNodeName,
      dv.dimPropsForNode o dc.useNodeName, "Node"))
  | .service o => (dc.handleAddService o).map fun dc => some (dc, none, none, "Service")
  | .other _ => some none

def storeAdd (links : List PropertyLink) (dc : DatapointCache) (key : UID)
    (dps : Option (List Datapoint)) (dimProps : Option DimProperties) (kind : String) :
    DatapointCache :=
  let dc := match dps with
    | some dps => { dc with dpCache := dc.dpCache.insert key dps }
    | none => dc
  let dc := if kind ≠ "" then { dc with uidKindCache := dc.uidKindCache.insert key kind } else dc
  match dimProps with
  | some dimProps => dc.addDimPropsToCache links key dimProps
  | none => dc

/-- `HandleAdd`, with `links` in place of the literal of `addDimPropsToCache`: the cache after
the object is added, and the key it returns. -/
def handleAdd (dv : Derivations) (links : List PropertyLink) (dc : DatapointCache)
    (newObj : Object) : Option (DatapointCache × Option UID) :=
  (dc.handleAddSwitch dv newObj).map fun
    | none => (dc, none)
    | some (dc', dps, dimProps, kind) =>
        match keyForObject newObj with
        | .error _ => (dc', none)
        | .ok key => (dc'.storeAdd links key dps dimProps kind, some key)

def deleteByKey (dc : DatapointCache) (key : UID) : Option DatapointCache :=
  let dc? :=
    match dc.uidKindCache.getD key "" with
    | "Pod" => some (dc.handleDeletePod key)
    | "Service" => dc.handleDeleteService key
    | _ => some dc
  dc?.map fun dc => { dc with
    uidKindCache := dc.uidKindCache.erase key
    dpCache := dc.dpCache.erase key
    dimPropCache := dc.dimPropCache.erase key }

def handleDelete (dc : DatapointCache) (oldObj : Object) : Option (DatapointCache × Option UID) :=
  match keyForObject oldObj with
  | .error _ => some (dc, none)
  | .ok key => (dc.deleteByKey key).map fun dc => (dc, some key)

/-! ### Runs -/

inductive Event where
  | add (obj : Object)
  | delete (obj : Object)

def step (dv : Derivations) (links : List PropertyLink) (dc : DatapointCache) :
    Event → Option DatapointCache
  | .add obj => (dc.handleAdd dv links obj).map Prod.fst
  | .delete obj => (dc.handleDelete obj).map Prod.fst

def run (dv : Derivations) (links : List PropertyLink) (dc : DatapointCache)
    (events : List Event) : Option DatapointCache :=
  events.foldlM (step dv links) dc

end DatapointCache

def Object.uidKind : Object → Option (UID × String)
  | .pod o => some (o.uid, "Pod")
  | .namespace' o => some (o.uid, "Namespace")
  | .replicationController o => some (o.uid, "ReplicationController")
  | .daemonSet o => some (o.uid, "DaemonSet")
  | .deployment o => some (o.uid, "Deployment")
  | .replicaSet o => some (o.uid, "ReplicaSet")
  | .resourceQuota o => some (o.uid, "ResourceQuota")
  | .node o => some (o.uid, "Node")
  | .service o => some (o.uid, "Service")
  | .other _ => none

/-- Every added object of a handled type carries its UID with the kind `kindOf` gives it. -/
def KindsAgree (kindOf : UID → String) (events : List DatapointCache.Event) : Prop :=
  ∀ obj, DatapointCache.Event.add obj ∈ events → ∀ u k, obj.uidKind = some (u, k) → kindOf u = k

/-- Each UID is carried by resources of one kind only. -/
def OneKindPerUID (events : List DatapointCache.Event) : Prop :=
  ∃ kindOf, KindsAgree kindOf events

end ClusterCache
