import Understack.Cinder.PoolFilter
import Understack.Cinder.PoolNames
import Understack.Cinder.SvmDiscovery
import Understack.Cinder.VolumeHosts
import Understack.Deploy.DeployUpdate
import Understack.Deploy.Retagging
import Understack.Deploy.Toggle
import Understack.Dexop.DexClients
import Understack.Exporter.Formatter
import Understack.Exporter.StateMirror
import Understack.Exporter.Streams
import Understack.Ironic.NodeNameCheck
import Understack.Ironic.PortRenames
import Understack.Ironic.PortgroupMiddleware
import Understack.Ironic.SwitchTraits
import Understack.Nautobotop.ClusterMembership
import Understack.Nautobotop.CompareCoverage
import Understack.Nautobotop.DataHash
import Understack.Nautobotop.LocationRemoval
import Understack.Nautobotop.LocationTypeForest
import Understack.Nautobotop.PaginatedList
import Understack.Nautobotop.PermissionGrants
import Understack.Nautobotop.PrefixConvergence
import Understack.Nautobotop.ReferenceSafety
import Understack.Nautobotop.SettledRuns
import Understack.Nautobotop.VlanConvergence
import Understack.Neutron.NetdevRuns
import Understack.Neutron.PaloAltoRouters
import Understack.Neutron.SegmentUsage
import Understack.Neutron.SviRuns
import Understack.Neutron.SwitchSync
import Understack.Neutron.UplinkRuns
import Understack.Neutron.VniAutoSelection
import Understack.Nova.StorageConfig
import Understack.Nova.StorageRoutes
import Understack.Ovn.KnownNetworks
import Understack.Workflows.ActiveFirewall
import Understack.Workflows.BmcBios
import Understack.Workflows.DeviceMirror
import Understack.Workflows.DevicePlacement
import Understack.Workflows.InterfaceAgreement
import Understack.Workflows.IronicNode
import Understack.Workflows.KeystoneResync
import Understack.Workflows.NetappConnections
import Understack.Workflows.NetappLifecycle
import Understack.Workflows.NetappResume
import Understack.Workflows.NetdevConvergence
import Understack.Workflows.NetdevExposure
import Understack.Workflows.NetdevPortResume
import Understack.Workflows.OsloEvent
import Understack.Workflows.RaidLayout
import Understack.Workflows.UcvniCuts
