import ClusterClient.Balancing.Desk
import ClusterClient.Profile.Registry
import ClusterClient.Proofs.AtMostOnce
import ClusterClient.Proofs.Coherence
import ClusterClient.Proofs.Course
import ClusterClient.Rehearsal.Run
import ClusterClient.Proofs.Story
import ClusterClient.Proofs.LastError
import ClusterClient.Proofs.Plan
import ClusterClient.Proofs.Itinerary
import ClusterClient.Proofs.Exhaustion
import ClusterClient.Proofs.Credit
import ClusterClient.Proofs.Exchange
import ClusterClient.Rehearsal.Timeline
import ClusterClient.Proofs.LateReplies
import ClusterClient.Proofs.Detour
import ClusterClient.Proofs.Written
import ClusterClient.Proofs.Failure
import ClusterClient.Proofs.Pace
import ClusterClient.Proofs.LaunchTimes
import ClusterClient.Proofs.Allowance
import ClusterClient.Proofs.Failover
import ClusterClient.Proofs.Preparing
import ClusterClient.Proofs.Sharing
import ClusterClient.Proofs.RoundRobin
import ClusterClient.Proofs.Safer
import ClusterClient.Proofs.Peers
import ClusterClient.Proofs.KeyspaceName
import ClusterClient.Proofs.Layout
import ClusterClient.Proofs.SharedPort
import ClusterClient.Proofs.Remapping
import ClusterClient.Proofs.EarlyEnd
