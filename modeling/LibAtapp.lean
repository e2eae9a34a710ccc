import LibAtapp.Etcdcli.ConsistentHash
import LibAtapp.Etcdcli.PackerRoundTrip
import LibAtapp.Etcdcli.WatchResume
import LibAtapp.Etcdcli.WatchWrite
import LibAtapp.Modules.KeyHistory
import LibAtapp.Modules.SnapshotExact
import LibAtapp.Connectors.BindingRuns
import LibAtapp.Modules.ContextIsolation
import LibAtapp.Etcdcli.RingSearches
import LibAtapp.Modules.TopologyVersions
import LibAtapp.Modules.TopologyHistory
import LibAtapp.Connectors.MessageFates
import LibAtapp.Connectors.EndpointIndex
import LibAtapp.Connectors.WakersInTime
import LibAtapp.App.LeftFlags
import LibAtapp.Conf.ExpressionSegments
import LibAtapp.Conf.DefaultsKeep
import LibAtapp.Conf.LogIdentity
import LibAtapp.Modules.WorkerReplacement
import LibAtapp.Modules.WorkerJobFates
import LibAtapp.Atbus.Reconnect
import LibAtapp.Atbus.LostTopology
import LibAtapp.Atbus.ConnectCache
import LibAtapp.Connectors.InternalEvents
import LibAtapp.Modules.KeyNames
import LibAtapp.Etcdcli.IngressRotation
import LibAtapp.Etcdcli.SortedBounds
import LibAtapp.Etcdcli.RoundRobin
import LibAtapp.Etcdcli.HostRemoval
import LibAtapp.Etcdcli.RequestPointers
import LibAtapp.Etcdcli.AnswerShapes
import LibAtapp.Conf.MessageEquality
import LibAtapp.App.ConfigureFiles
import LibAtapp.Etcdcli.DeletorRuns
import LibAtapp.Etcdcli.Publications
import LibAtapp.Connectors.MessageLoss
import LibAtapp.Connectors.DrainingRuns
import LibAtapp.App.Signals
import LibAtapp.App.CommandResponse
import LibAtapp.App.LoggerSinks
import LibAtapp.App.AppIds
import LibAtapp.Conf.Timepoints
import LibAtapp.Conf.Sizes
import LibAtapp.Conf.YamlPaths
import LibAtapp.Modules.Rebalance
import LibAtapp.Modules.TickCallbacks
import LibAtapp.Modules.ScalingSettles
import LibAtapp.Conf.RapidjsonRoundTrip
import LibAtapp.Connectors.Loopback
import LibAtapp.Modules.TopologyReplica
import LibAtapp.Modules.DiscoveryReplica
import LibAtapp.Etcdcli.SessionReady
