import ClusterApi.Util.Version
import ClusterApi.Topology.UpgradePlan
import ClusterApi.Topology.ClusterClassVersions
import ClusterApi.Lib.Layering
import ClusterApi.Lib.KeyedList
import ClusterApi.Lib.Balance
import ClusterApi.Clusterctl.MoveSequence
import ClusterApi.Conditions.Patch
import ClusterApi.Util.FailureDomains
import ClusterApi.Kubeadm.Scale
import ClusterApi.Api.Conversion
import ClusterApi.Lib.Trace
import ClusterApi.Kubeadm.Remediation
import ClusterApi.Topology.DesiredState
import ClusterApi.Topology.VersionSkew
import ClusterApi.Rollout.Mdutil
import ClusterApi.Rollout.Planner
import ClusterApi.Lib.Walk
import ClusterApi.Clusterctl.Tenants
import ClusterApi.Lib.GoStrings
import ClusterApi.Patches.Variables
import ClusterApi.Conditions.Aggregate
import ClusterApi.Lib.GoSort
import ClusterApi.Lib.Pdqsort
import ClusterApi.Lib.SortLawful
import ClusterApi.MachineSet.DeletionOrder
import ClusterApi.MachineSet.Move
import ClusterApi.Util.MachineCollection
import ClusterApi.Rollout.Scale
import ClusterApi.Rollout.RollingUpdate
import ClusterApi.Hooks.Tracking
