import IsoTp.Time
import IsoTp.Bytes
import IsoTp.Buffer
import IsoTp.Text.Shapeless
import IsoTp.Text.Quoted
import IsoTp.Can.Frame
import IsoTp.Pdu.Basic
import IsoTp.Pdu.Encode
import IsoTp.Pdu.Decode
import IsoTp.SeparationTime
import IsoTp.FlowControl
import IsoTp.Config
import IsoTp.Error
import IsoTp.Link.Basic
import IsoTp.Link.Controller
import IsoTp.Receiver.Basic
import IsoTp.Receiver.Host
import IsoTp.Sender.Basic
import IsoTp.Sender.Host
import IsoTp.Channel.Basic
import IsoTp.Channel.Host
import IsoTp.Exchange
import IsoTp.Segmentation
import IsoTp.Assembly
import IsoTp.Proofs.Pdu.Kind
import IsoTp.Proofs.Pdu.RoundTrip
import IsoTp.Proofs.Segmentation
import IsoTp.Proofs.Sender.Cargo
import IsoTp.Proofs.Receiver.Refinement
import IsoTp.Proofs.Receiver.Reassembly
import IsoTp.Proofs.Receiver.Following
import IsoTp.Proofs.Channel.Transmission
import IsoTp.Proofs.Channel.Reception
import IsoTp.Proofs.Channel.Sending
import IsoTp.Proofs.Channel.Wire
import IsoTp.Proofs.Channel.Willing
import IsoTp.Proofs.Exchange.Rounds
import IsoTp.Proofs.Exchange.Suited
import IsoTp.Proofs.Exchange.Agreement
import IsoTp.Proofs.Exchange.Cooperation
import IsoTp.Proofs.Buffer
import IsoTp.Proofs.Pdu.Proper
import IsoTp.Proofs.Link.Offering
import IsoTp.Proofs.Receiver.Soundness
import IsoTp.Proofs.Sender.Soundness
import IsoTp.Proofs.Channel.Outcome
import IsoTp.Proofs.Channel.Soundness
import IsoTp.Proofs.Channel.Collection
import IsoTp.Proofs.Channel.Answers
import IsoTp.Proofs.Channel.Duplex
import IsoTp.Proofs.Channel.Credit
import IsoTp.Proofs.Channel.Balance
import IsoTp.Proofs.Channel.Conservation
import IsoTp.Proofs.Channel.Endings
import IsoTp.Proofs.Channel.Pacing
import IsoTp.Proofs.Channel.Deferral
import IsoTp.Proofs.Channel.Offers
import IsoTp.Proofs.Channel.Alike
import IsoTp.Proofs.Channel.Halves
import IsoTp.Proofs.Renewal
import IsoTp.Proofs.Pdu.Canonical
import IsoTp.Proofs.Pdu.Trailing
import IsoTp.Proofs.Runs
import IsoTp.Proofs.Sender.Outcome
import IsoTp.Proofs.Sender.History
import IsoTp.Proofs.Sender.Window
import IsoTp.Proofs.Sender.Waiting
import IsoTp.Proofs.Sender.Timers
import IsoTp.Proofs.SeparationTime
import IsoTp.Proofs.Receiver.Outcome
import IsoTp.Proofs.Receiver.Schedule
import IsoTp.Proofs.Link.Indistinct
import IsoTp.Proofs.Channel.Refusal
import IsoTp.Proofs.Deadlines
import IsoTp.Proofs.Channel.Arming
import IsoTp.Proofs.Channel.Timers
