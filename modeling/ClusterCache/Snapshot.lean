import ClusterCache.DatapointCache

/-!
# Snapshots of the datapoint cache

`AllDatapoints` and `AllDimProperties` are what the monitor reads out of the cache: a copy of
every cached datapoint, and a copy of every cached record. Go ranges over the cache's maps in an
order it leaves unspecified, so each takes the order of its range as a parameter `order`; the
code's own is the order of the keys. A copy of a datapoint is its value, since the model's
datapoints are values. `DimProperties.Copy` copies the record's dimension, and each entry of its
two maps into new maps.
-/

namespace ClusterCache

/-- `DimProperties.Copy`: the dimension, and new maps that get each entry of the record's maps,
in the order of their entries. -/
def DimProperties.copy (dp : DimProperties) : DimProperties :=
  { toDimension := ⟨dp.name, dp.value⟩
    properties := dp.properties.entries.foldl (fun m e => m.insert e.1 e.2) ∅
    tags := dp.tags.entries.foldl (fun m e => m.insert e.1 e.2) ∅ }

namespace DatapointCache

/-- `AllDatapoints`, ranging over `dpCache` in the order `order`: the datapoints of each key in
turn, each copied. -/
def allDatapointsBy (dc : DatapointCache) (order : List UID) : List Datapoint :=
  order.foldl (fun dps k =>
    match dc.dpCache.lookup k with
    | some kdps => dps ++ kdps
    | none => dps) []

def allDatapoints (dc : DatapointCache) : List Datapoint :=
  dc.allDatapointsBy dc.dpCache.keys

/-- `AllDimProperties`, ranging over `dimPropCache` in the order `order`: a copy of the record of
each key in turn. -/
def allDimPropertiesBy (dc : DatapointCache) (order : List UID) : List DimProperties :=
  order.foldl (fun dimProps k =>
    match dc.dimPropCache.lookup k with
    | some cached => dimProps ++ [cached.copy]
    | none => dimProps) []

def allDimProperties (dc : DatapointCache) : List DimProperties :=
  dc.allDimPropertiesBy dc.dimPropCache.keys

end DatapointCache

end ClusterCache
