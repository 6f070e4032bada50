import WarrenGuard.KernelMirror
import WarrenGuard.PortTuples
import WarrenGuard.PortLedger
import WarrenGuard.ClaimedAddresses
import WarrenGuard.DualStack
import WarrenGuard.LeaseConservation
import WarrenGuard.TokenSessions
import WarrenGuard.ClientConcurrency
import WarrenGuard.ReverseSealing
import WarrenGuard.CrossReplay
import WarrenGuard.WalletLedger
import WarrenGuard.UplinkTally
import WarrenGuard.AttributionLiveness
import WarrenGuard.AnchorSlots
import WarrenGuard.Allowlist
import WarrenGuard.BypassRules
import WarrenGuard.PfKillswitch
import WarrenGuard.MapRequests
import WarrenGuard.StaleSource
import WarrenGuard.PortRetryAfter
import WarrenGuard.PortHolding
import WarrenGuard.SessionTtl
import WarrenGuard.DownlinkPatrol
import WarrenGuard.KeyRenaming
import WarrenGuard.EpochAck
import WarrenGuard.RoutingPlan
import WarrenGuard.LegVerdicts
import WarrenGuard.DownlinkBudget
import WarrenGuard.BucketBound
import WarrenGuard.ConnectionLimiter
import WarrenGuard.HeadSegmentation
import WarrenGuard.CapsuleBuffer
import WarrenGuard.FrameReader
import WarrenGuard.FlowLearning
import WarrenGuard.CarrierFrames
import WarrenGuard.ClientHello
import WarrenGuard.NatPmpWire
import WarrenGuard.UdpHostility
import WarrenGuard.TunDispatch
