import AgentBox.Tickets.SingleUse
import AgentBox.Wire.Relay
import AgentBox.Wire.Admission
import AgentBox.Wire.Failure
import AgentBox.Wire.Parser
import AgentBox.Web.Transcript
import AgentBox.Stream.RingHistory
import AgentBox.Stream.Coverage
import AgentBox.Jobs.History
import AgentBox.Control.Epochs
import AgentBox.Control.Rebinding
import AgentBox.Runtime.BindingStore
import AgentBox.Stream.Heartbeats
import AgentBox.Lifecycle.Exclusion
import AgentBox.Runtime.PeerTransfers
import AgentBox.Stream.AtMostOnce
import AgentBox.Stream.Writer
import AgentBox.Kebui.Reserved
import AgentBox.Auth.Rotation
import AgentBox.Web.Envelope
import AgentBox.Wire.RoundTrip
import AgentBox.Runtime.Redraw
import AgentBox.Web.IncidentWindows
