import Netconf.Agent.Act
import Netconf.Agent.ActForm
import Netconf.Agent.Basic
import Netconf.Agent.Dispatch
import Netconf.Agent.Handshake
import Netconf.Agent.Loop
import Netconf.Agent.Service
import Netconf.Agent.Serving
import Netconf.Backend.Connection
import Netconf.Backend.Message
import Netconf.Backend.Reason
import Netconf.Backend.Server
import Netconf.Bytes
import Netconf.Capability
import Netconf.CommandLine
import Netconf.EventForm
import Netconf.Framing.Basic
import Netconf.Framing.Chunked
import Netconf.Framing.EndOfMessage
import Netconf.Framing.Read
import Netconf.Hello
import Netconf.Identity
import Netconf.Json.Double
import Netconf.Json.Legible
import Netconf.Json.Mismatch
import Netconf.Json.Parser
import Netconf.Json.Printer
import Netconf.Json.Record
import Netconf.Json.Shortest
import Netconf.Json.Value
import Netconf.Main
import Netconf.Notification
import Netconf.Proofs.Agent.Acceptance
import Netconf.Proofs.Agent.Agreement
import Netconf.Proofs.Agent.Answers
import Netconf.Proofs.Agent.Books
import Netconf.Proofs.Agent.Call
import Netconf.Proofs.Agent.Calls
import Netconf.Proofs.Agent.Change
import Netconf.Proofs.Agent.Course
import Netconf.Proofs.Agent.Exchange
import Netconf.Proofs.Agent.Exclusion
import Netconf.Proofs.Agent.Exits
import Netconf.Proofs.Agent.Farewell
import Netconf.Proofs.Agent.Handshake
import Netconf.Proofs.Agent.Intake
import Netconf.Proofs.Agent.Journey
import Netconf.Proofs.Agent.Motion
import Netconf.Proofs.Agent.Progress
import Netconf.Proofs.Agent.Release
import Netconf.Proofs.Agent.Running
import Netconf.Proofs.Agent.Sequential
import Netconf.Proofs.Agent.Silence
import Netconf.Proofs.Agent.Stride
import Netconf.Proofs.Agent.Tally
import Netconf.Proofs.Agent.Teardown
import Netconf.Proofs.Agent.Turns
import Netconf.Proofs.Agent.Wants
import Netconf.Proofs.Agent.Wire
import Netconf.Proofs.Backend.Call
import Netconf.Proofs.Backend.Connection
import Netconf.Proofs.Backend.Lines
import Netconf.Proofs.Capability
import Netconf.Proofs.Except
import Netconf.Proofs.Framing.Blank
import Netconf.Proofs.Framing.Chunks
import Netconf.Proofs.Framing.First
import Netconf.Proofs.Framing.Frame
import Netconf.Proofs.Framing.Limit
import Netconf.Proofs.Framing.Stream
import Netconf.Proofs.Framing.Whole
import Netconf.Proofs.Identity
import Netconf.Proofs.Json.Legible
import Netconf.Proofs.Json.Pretty
import Netconf.Proofs.Json.Roundtrip
import Netconf.Proofs.Registry
import Netconf.Proofs.Registry.Files
import Netconf.Proofs.Rpc.Boundary
import Netconf.Proofs.Rpc.Tree
import Netconf.Proofs.Session.Blanks
import Netconf.Proofs.Session.Capabilities
import Netconf.Proofs.Session.Framed
import Netconf.Proofs.Session.Meaning
import Netconf.Proofs.Session.Opening
import Netconf.Proofs.Session.Reception
import Netconf.Proofs.Session.Record
import Netconf.Proofs.Session.Snapshot
import Netconf.Proofs.Session.Verdict
import Netconf.Proofs.Subscription.Deadline
import Netconf.Proofs.Subscription.Delivery
import Netconf.Proofs.Subscription.Request
import Netconf.Proofs.Text.Bytes
import Netconf.Proofs.Text.Decimal
import Netconf.Proofs.Text.Numeral
import Netconf.Proofs.Time.Calendar
import Netconf.Proofs.Time.Strict
import Netconf.Proofs.Time.Timestamp
import Netconf.Proofs.Xml.Attributes
import Netconf.Proofs.Xml.Binding
import Netconf.Proofs.Xml.Elaboration
import Netconf.Proofs.Xml.Evaluation
import Netconf.Proofs.Xml.Legible
import Netconf.Proofs.Xml.Markup
import Netconf.Proofs.Xml.Name
import Netconf.Proofs.Xml.Passage
import Netconf.Proofs.Xml.Prologue
import Netconf.Proofs.Xml.Rendered
import Netconf.Proofs.Xml.Resolution
import Netconf.Proofs.Xml.Roundtrip
import Netconf.Proofs.Xml.Sound
import Netconf.Registry
import Netconf.Rehearsal.Client
import Netconf.Rehearsal.Delivery
import Netconf.Rehearsal.Server
import Netconf.Rehearsal.Session
import Netconf.Rpc.Error
import Netconf.Rpc.ErrorForm
import Netconf.Rpc.Reply
import Netconf.Rpc.Request
import Netconf.Session.Accept
import Netconf.Session.Conversation
import Netconf.Session.Event
import Netconf.Session.Fault
import Netconf.Session.Framed
import Netconf.Session.Record
import Netconf.Session.Snapshot
import Netconf.SessionId
import Netconf.Settings
import Netconf.Shutdown
import Netconf.Subscription.Delivery
import Netconf.Subscription.Feed
import Netconf.Subscription.Request
import Netconf.Subscription.Slot
import Netconf.Text.Blank
import Netconf.Text.Numeral
import Netconf.Text.Utf8
import Netconf.Text.Visible
import Netconf.Time.Instant
import Netconf.Time.Timestamp
import Netconf.Transport.Fault
import Netconf.Transport.Incoming
import Netconf.Transport.Outgoing
import Netconf.Xml.Character
import Netconf.Xml.Doctype
import Netconf.Xml.Document
import Netconf.Xml.Element
import Netconf.Xml.ElementForm
import Netconf.Xml.Encoding
import Netconf.Xml.Instruction
import Netconf.Xml.Malformed
import Netconf.Xml.Name
import Netconf.Xml.Printer
import Netconf.Xml.Reading
import Netconf.Xml.Reference
import Netconf.Xml.Scope
import Netconf.Xml.Source
import Netconf.Xml.Tag
import Netconf.Xml.Token
