import ClusterCache.GoMap
import ClusterCache.GoString
import ClusterCache.Resources
import ClusterCache.PodServiceCache
import ClusterCache.PodCache
import ClusterCache.Proof.JoinIndex
import ClusterCache.DatapointCache
import ClusterCache.Snapshot
import ClusterCache.Proof.Events
import ClusterCache.Proof.JoinExactness
import ClusterCache.Proof.Runs
import ClusterCache.Proof.Frame
import ClusterCache.Proof.Idempotence
import ClusterCache.Proof.ServiceProperty
import ClusterCache.Proof.ChangeDetection
import ClusterCache.Proof.ServiceName
import ClusterCache.Proof.PropertyLinks
import ClusterCache.Proof.LinkConsistency
import ClusterCache.Proof.ServiceCache
import ClusterCache.Proof.PodCache
import ClusterCache.Proof.Snapshot
import ClusterCache.Proof.ServiceAgreement
import ClusterCache.Proof.RoundTrip
import ClusterCache.Proof.Properties
import ClusterCache.Proof.History
import ClusterCache.Proof.LatestAdds
import ClusterCache.Proof.JoinHistory
import ClusterCache.Proof.Interleaving
