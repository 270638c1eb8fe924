import RoboticsIpc.Ipc.SpscRestart
import RoboticsIpc.Lib.Checked
import RoboticsIpc.Router.Accepted
import RoboticsIpc.Router.ShmLinkLaws
import RoboticsIpc.Router.ShmDelivery
import RoboticsIpc.Router.ShmProgress
import RoboticsIpc.Router.PriorityFloor
import RoboticsIpc.Router.DatagramLink
import RoboticsIpc.Router.DatagramLinkLaws
import RoboticsIpc.Router.SourceIdentity
import RoboticsIpc.Router.MixedRouterServer
import RoboticsIpc.Router.MixedLaws
import RoboticsIpc.Router.Serving
import RoboticsIpc.Router.MixedPoll
import RoboticsIpc.Lib.ServiceLoop
import RoboticsIpc.Router.Node
import RoboticsIpc.Router.FailureIsolation
import RoboticsIpc.Router.Transparency
import RoboticsIpc.Ipc.ShmLayout
import RoboticsIpc.Lib.Separator
import RoboticsIpc.Router.AddressGrammar
import RoboticsIpc.Router.SlotAlignment
import RoboticsIpc.Router.Stored
import RoboticsIpc.Ipc.RingCoupling
import RoboticsIpc.Router.AcceptedProfile
import RoboticsIpc.Router.FloorCoupling
import RoboticsIpc.Router.LoadedIntegers
import RoboticsIpc.Router.OptionalKeys
import RoboticsIpc.Lib.Tally
import RoboticsIpc.Router.DropAccounting
import RoboticsIpc.Router.FrameAccounting
import RoboticsIpc.Router.GapAttribution
import RoboticsIpc.Router.WireFormat
import RoboticsIpc.Router.RoutingAlgebra
import RoboticsIpc.Router.FrameLenses
import RoboticsIpc.Router.Sidebands
import RoboticsIpc.Router.PublisherRestart
import RoboticsIpc.Router.TrackerOrder
import RoboticsIpc.Gateway.WsServer
import RoboticsIpc.Router.RegionBounds
import RoboticsIpc.Router.IngressAccounting
import RoboticsIpc.Gateway.WsViolations
import RoboticsIpc.Gateway.Handshake
import RoboticsIpc.Lib.Pipe
import RoboticsIpc.Gateway.WsTestClient
import RoboticsIpc.Gateway.WsSession
import RoboticsIpc.Gateway.WsSessionRuns
import RoboticsIpc.Gateway.WsBroadcast
import RoboticsIpc.Lib.PriorityScan
import RoboticsIpc.Router.ShmScheduling
import RoboticsIpc.Lib.Channel
import RoboticsIpc.Router.DatagramSystem
import RoboticsIpc.Lib.LatestValue
import RoboticsIpc.Lib.Seek
import RoboticsIpc.Router.LastValueCache
import RoboticsIpc.Router.Subscriptions
import RoboticsIpc.Router.RecvUntil
import RoboticsIpc.Lib.Template
import RoboticsIpc.Gateway.FrameText
import RoboticsIpc.Gateway.Bridge
