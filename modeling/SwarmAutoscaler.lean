import SwarmAutoscaler.Cluster.Refinement
import SwarmAutoscaler.Cluster.Causes
import SwarmAutoscaler.Cluster.Wire
import SwarmAutoscaler.Cluster.Broadcast
import SwarmAutoscaler.Cluster.Cancel
import SwarmAutoscaler.Cluster.Count
import SwarmAutoscaler.Cluster.Crash
import SwarmAutoscaler.Cluster.Demand
import SwarmAutoscaler.Cluster.Wakeable
import SwarmAutoscaler.Cluster.WakeUp
import SwarmAutoscaler.Cluster.AllOrNothing
import SwarmAutoscaler.Cluster.Abort
import SwarmAutoscaler.Cluster.Retry
import SwarmAutoscaler.Cluster.Constraints
import SwarmAutoscaler.Cluster.Managers
import SwarmAutoscaler.Cluster.Ownership
import SwarmAutoscaler.Cluster.Peers
import SwarmAutoscaler.Cluster.PortTables
import SwarmAutoscaler.Kernel.Absent
import SwarmAutoscaler.Kernel.Classifier
import SwarmAutoscaler.Kernel.Connections
import SwarmAutoscaler.Kernel.Debounce
import SwarmAutoscaler.Kernel.HalfClosed
import SwarmAutoscaler.Monitoring.Average
import SwarmAutoscaler.Monitoring.Cgroup
import SwarmAutoscaler.Monitoring.Containers
import SwarmAutoscaler.Monitoring.Freeze
import SwarmAutoscaler.Monitoring.Lifecycle
import SwarmAutoscaler.Monitoring.Registration
import SwarmAutoscaler.Monitoring.Samples
