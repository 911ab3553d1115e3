import Nxwlan.PyText
import Nxwlan.Base64
import Nxwlan.JsonFrames
import Nxwlan.JsonText
import Nxwlan.AgentState
import Nxwlan.Forwarder
import Nxwlan.PublishedFrames
import Nxwlan.ForwarderRuns
import Nxwlan.Messaging
import Nxwlan.ProbeRequests
import Nxwlan.Rescans
import Nxwlan.ReceiveLoop
import Nxwlan.TextSearch
import Nxwlan.ScanCommands
import Nxwlan.ProbeAdverts
import Nxwlan.ScanResults
import Nxwlan.MininetConnector
import Nxwlan.SoundTables
import Nxwlan.MalformedAdverts
import Nxwlan.ParsedScans
import Nxwlan.KeyChanges
import Nxwlan.ReceiveSurvival
import Nxwlan.PayloadPaths
import Nxwlan.ForwarderSurvival
import Nxwlan.ForwarderStages
import Nxwlan.AgentThreads
import Nxwlan.ThreadSteps
import Nxwlan.StepRuns
import Nxwlan.LocalDelivery
import Nxwlan.ForwarderLife
import Nxwlan.OwnFrames
import Nxwlan.OwnPasses
import Nxwlan.OwnPublication
import Nxwlan.OwnProgress
import Nxwlan.SignedPayloads
import Nxwlan.DuplicateDrops
import Nxwlan.FloodNetwork
import Nxwlan.FloodScope
import Nxwlan.FloodPasses
import Nxwlan.FloodCoverage
import Nxwlan.ByteFields
import Nxwlan.ExactTables
import Nxwlan.SwitchParser
import Nxwlan.P4Switch
import Nxwlan.SwitchWiring
import Nxwlan.SwitchForwarding
import Nxwlan.TunnelTransparency
import Nxwlan.Vaps
import Nxwlan.VapTunnels
import Nxwlan.VapIsolation
import Nxwlan.VapIds
import Nxwlan.VapSetups
import Nxwlan.VapReach
import Nxwlan.GatePledges
import Nxwlan.SenderGates
import Nxwlan.LinkSteps
import Nxwlan.LinkNotices
import Nxwlan.OwnEntry
import Nxwlan.SessionKeys
import Nxwlan.SessionPairs
import Nxwlan.SessionMoves
import Nxwlan.SessionSteps
import Nxwlan.SessionAgreement
import Nxwlan.AddIeCommands
import Nxwlan.KeyRefresh
import Nxwlan.KeyWaits
import Nxwlan.StartupQueue
import Nxwlan.LastWrites
import Nxwlan.ClientBlacklist
import Nxwlan.BitWords
import Nxwlan.AssocIds
import Nxwlan.BeaconRefresh
import Nxwlan.FrameBuffers
import Nxwlan.TaggedRecords
import Nxwlan.InfoElements
import Nxwlan.CapaDatabase
import Nxwlan.ByteMemory
import Nxwlan.InjectedAssoc
import Nxwlan.RunningMeans
import Nxwlan.VendorEncoder
import Nxwlan.RfBands
import Nxwlan.KernelInts
import Nxwlan.PerFlowPower
import Nxwlan.DebugfsWrites
import Nxwlan.TxPowerLimit
import Nxwlan.DistClust
import Nxwlan.ClusterRuns
import Nxwlan.SlidingWindows
import Nxwlan.IfaceMon
import Nxwlan.SharedRates
import Nxwlan.ProbePower
import Nxwlan.RoundedNumbers
import Nxwlan.AirtimeShares
import Nxwlan.AudibleReplies
import Nxwlan.PyWords
import Nxwlan.StationDumps
import Nxwlan.ReadinessToServe
import Nxwlan.ClientSamples
import Nxwlan.FirstMinima
import Nxwlan.DistChan
import Nxwlan.ChannelRuns
import Nxwlan.ProbeReplies
import Nxwlan.ChannelSwitch
import Nxwlan.KeyRollover
import Nxwlan.EmulatedNodes
import Nxwlan.NodeTables
import Nxwlan.EmulatedNetwork
import Nxwlan.ScanBlocks
import Nxwlan.ScanAttribution
import Nxwlan.RingWindow
import Nxwlan.BlockAck
import Nxwlan.BlockAckWindow
import Nxwlan.BlockAckRuns
import Nxwlan.FrameCounts
import Nxwlan.HeapLists
import Nxwlan.StationLists
import Nxwlan.StationViews
import Nxwlan.StationTimeouts
import Nxwlan.StationRuns
import Nxwlan.ReorderWindow
import Nxwlan.RxReorder
import Nxwlan.ReorderRuns
import Nxwlan.OrderedQueues
import Nxwlan.EloopTimeouts
import Nxwlan.EloopRuns
import Nxwlan.PowerReports
