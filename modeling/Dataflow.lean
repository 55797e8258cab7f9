import Dataflow.Network
import Dataflow.Proofs.Groups.Classes
import Dataflow.Proofs.Groups.Refinement
import Dataflow.Proofs.Groups.Sound
import Dataflow.Proofs.Config.Stored
import Dataflow.Proofs.Config.Blocks
import Dataflow.Proofs.Registry.Kept
import Dataflow.Proofs.Registry.Changes
import Dataflow.Proofs.Toml.Ordered
import Dataflow.Proofs.Config.Flattening
import Dataflow.Proofs.Check.Verdict
import Dataflow.Proofs.Core.Sending
import Dataflow.Proofs.Core.Touch
import Dataflow.Proofs.Core.Proposal
import Dataflow.Proofs.Process.Heads
import Dataflow.Proofs.Process.Step
import Dataflow.Proofs.Process.Life
import Dataflow.Proofs.Process.Watch
import Dataflow.Proofs.Process.Protocol
import Dataflow.Proofs.Process.Freeze
import Dataflow.Proofs.Process.Keys
import Dataflow.Proofs.Process.Completion
import Dataflow.Proofs.Types.Change
import Dataflow.Proofs.Types.Agreement
import Dataflow.Proofs.Types.Onward
import Dataflow.Proofs.Types.Permanence
import Dataflow.Proofs.Types.Proposal
import Dataflow.Proofs.Types.Negotiation
import Dataflow.Proofs.Process.Refusals
import Dataflow.Proofs.Core.Traffic
import Dataflow.Proofs.Process.Rates
import Dataflow.Proofs.Process.Output
import Dataflow.Proofs.Process.Heartbeat
import Dataflow.Proofs.Network.Ensemble
import Dataflow.Proofs.Network.Delivery
import Dataflow.Proofs.Network.Diamond
import Dataflow.Proofs.Process.Regular
import Dataflow.Proofs.Process.Fallback
import Dataflow.Proofs.Registry.History
import Dataflow.Proofs.Process.Record
import Dataflow.Proofs.Process.Erasure
import Dataflow.Proofs.Process.Marker
import Dataflow.Proofs.Core.Hushed
import Dataflow.Proofs.Core.Near
import Dataflow.Proofs.Process.Beside
import Dataflow.Proofs.Process.Observers
import Dataflow.Proofs.Config.Visits
import Dataflow.Proofs.Config.Entering
import Dataflow.Proofs.Frequency.LowestTerms
import Dataflow.Proofs.Frequency.Texts
import Dataflow.Proofs.Types.Texts
import Dataflow.Proofs.Process.Snapshots
import Dataflow.Proofs.Groups.Ranks
import Dataflow.Proofs.Groups.Guarded
import Dataflow.Proofs.Groups.Shape
