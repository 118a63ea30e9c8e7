import ActorKit.Lifecycle
import ActorKit.GroupRestarts
import ActorKit.Policies
import ActorKit.SpecRefinement
import ActorKit.BlastRadius
import ActorKit.Orphans
import ActorKit.TreeShape
import ActorKit.Subtree
import ActorKit.TreeWalks
import ActorKit.NameIndex
import ActorKit.Admission
import ActorKit.Wakeups
import ActorKit.Backpressure
import ActorKit.Custody
import ActorKit.DeadMail
import ActorKit.Failures
import ActorKit.MailboxFifo
import ActorKit.Hysteresis
import ActorKit.Erosion
import ActorKit.DispatchEnds
import ActorKit.Suspension
import ActorKit.Containment
import ActorKit.Executors
import ActorKit.Sim.Audits
import ActorKit.Sim.Selection
import ActorKit.Sim.Determinism
import ActorKit.Sim.Drain
import ActorKit.Sim.Draws
import ActorKit.Sim.Encoding
import ActorKit.Sim.Fairness
import ActorKit.Sim.Shape
import ActorKit.Sim.Identities
import ActorKit.Sim.VirtualTime
import ActorKit.RpcCalls
import ActorKit.RpcLeftovers
import ActorKit.RpcRoundTrip
import ActorKit.RpcCodec
import ActorKit.StealBatch
import ActorKit.StartStop
import ActorKit.Statistics
import ActorKit.Completion
import ActorKit.SmallSteps
import ActorKit.Thresholds
import ActorKit.Degradation
import ActorKit.LoomDouble
import ActorKit.Handshake
import ActorKit.SpecDrain
import ActorKit.Killed
import ActorKit.Overtaking
import ActorKit.Stealers
import ActorKit.RestartRate
import ActorKit.Sim.Rolls
import ActorKit.Sim.TraceHash
import ActorKit.Sim.Tallies
import ActorKit.Shutdown
