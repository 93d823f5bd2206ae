import PackRelay.Backend.Address
import PackRelay.Backend.CallError
import PackRelay.Backend.Capability
import PackRelay.Backend.Connect
import PackRelay.Backend.ConnectError
import PackRelay.Backend.Locator
import PackRelay.Backend.Opening
import PackRelay.Backend.Peer
import PackRelay.Backend.Scripted
import PackRelay.Backend.Wired
import PackRelay.Bytes
import PackRelay.Clock.Poll
import PackRelay.Clock.Run
import PackRelay.CommandLine
import PackRelay.Config.Basic
import PackRelay.Config.Document
import PackRelay.Config.Load
import PackRelay.Config.Validation
import PackRelay.Config.Watch
import PackRelay.Context.Basic
import PackRelay.Context.Reason
import PackRelay.Context.World
import PackRelay.Duration
import PackRelay.Exchange.Basic
import PackRelay.Exchange.Bridge
import PackRelay.Exchange.Error
import PackRelay.Exchange.Metrics
import PackRelay.Exchange.Observed
import PackRelay.Exchange.Status
import PackRelay.Http.Body
import PackRelay.Http.Headers
import PackRelay.Http.Path
import PackRelay.Http.Reply
import PackRelay.Http.Route
import PackRelay.Http.Serving
import PackRelay.IoError
import PackRelay.Json.Fault
import PackRelay.Json.Reader
import PackRelay.Json.Record
import PackRelay.Json.Tagged
import PackRelay.Json.Value
import PackRelay.Main
import PackRelay.Net.Host
import PackRelay.Net.SocketAddress
import PackRelay.Proofs.Backend.Address
import PackRelay.Proofs.Backend.Connecting
import PackRelay.Proofs.Backend.Locator
import PackRelay.Proofs.Backend.Opening
import PackRelay.Proofs.Backend.Reply
import PackRelay.Proofs.Backend.StandIn
import PackRelay.Proofs.Clock.Alone
import PackRelay.Proofs.Clock.Poll
import PackRelay.Proofs.Clock.Run
import PackRelay.Proofs.Config.Partial
import PackRelay.Proofs.Config.Validation
import PackRelay.Proofs.Config.Watch
import PackRelay.Proofs.Context.Basic
import PackRelay.Proofs.Context.Caller
import PackRelay.Proofs.Context.Isolation
import PackRelay.Proofs.Context.Reasons
import PackRelay.Proofs.Context.World
import PackRelay.Proofs.Exchange.Account
import PackRelay.Proofs.Exchange.Allotment
import PackRelay.Proofs.Exchange.Apart
import PackRelay.Proofs.Exchange.Cause
import PackRelay.Proofs.Exchange.Complete
import PackRelay.Proofs.Exchange.Conformance
import PackRelay.Proofs.Exchange.Deadline
import PackRelay.Proofs.Exchange.Delivery
import PackRelay.Proofs.Exchange.Ending
import PackRelay.Proofs.Exchange.Halves
import PackRelay.Proofs.Exchange.Joint
import PackRelay.Proofs.Exchange.Lockstep
import PackRelay.Proofs.Exchange.Metrics
import PackRelay.Proofs.Exchange.Onward
import PackRelay.Proofs.Exchange.Outcome
import PackRelay.Proofs.Exchange.Pace
import PackRelay.Proofs.Exchange.Progress
import PackRelay.Proofs.Exchange.Rejection
import PackRelay.Proofs.Exchange.Release
import PackRelay.Proofs.Exchange.Response
import PackRelay.Proofs.Exchange.Scene
import PackRelay.Proofs.Exchange.Settled
import PackRelay.Proofs.Exchange.Silence
import PackRelay.Proofs.Exchange.Sound
import PackRelay.Proofs.Exchange.Steps
import PackRelay.Proofs.Exchange.Told
import PackRelay.Proofs.Exchange.Verdict
import PackRelay.Proofs.Http.Answer
import PackRelay.Proofs.Http.Path
import PackRelay.Proofs.Http.Serving
import PackRelay.Proofs.Json.Reader
import PackRelay.Proofs.Json.Tagged
import PackRelay.Proofs.Lookup
import PackRelay.Proofs.Relay.Account
import PackRelay.Proofs.Relay.Carried
import PackRelay.Proofs.Relay.Course
import PackRelay.Proofs.Relay.Directions
import PackRelay.Proofs.Relay.Flow
import PackRelay.Proofs.Relay.Passed
import PackRelay.Proofs.Relay.Patience
import PackRelay.Proofs.Response.History
import PackRelay.Proofs.Server.Configured
import PackRelay.Proofs.Server.Reload
import PackRelay.Proofs.Server.Shutdown
import PackRelay.Proofs.Sidechannel.Close
import PackRelay.Proofs.Sidechannel.Count
import PackRelay.Proofs.Sidechannel.History
import PackRelay.Proofs.Sidechannel.Session
import PackRelay.Proofs.Stream.Connection
import PackRelay.Proofs.Stream.Sink
import PackRelay.Proofs.Text.Hex
import PackRelay.Proofs.Text.Utf8
import PackRelay.Proofs.Text.Uuid
import PackRelay.Proofs.Toml.Layout
import PackRelay.Proofs.Toml.Text
import PackRelay.Proofs.Toml.Value
import PackRelay.Proofs.Url.Host
import PackRelay.Proofs.Url.Ipv6
import PackRelay.Proofs.Url.Parse
import PackRelay.Proofs.Url.Path
import PackRelay.Proofs.Url.Percent
import PackRelay.Proofs.Wire.AtHand
import PackRelay.Proofs.Wire.Frame
import PackRelay.Proofs.Wire.Message
import PackRelay.Proofs.Wire.Receive
import PackRelay.Proofs.Wire.RoundTrip
import PackRelay.Proofs.Wire.Send
import PackRelay.Relay.Error
import PackRelay.Relay.Inbound
import PackRelay.Relay.Outbound
import PackRelay.Relay.Run
import PackRelay.Response.Session
import PackRelay.Response.Writer
import PackRelay.Schema
import PackRelay.Server.Basic
import PackRelay.Server.Reload
import PackRelay.Server.Shutdown
import PackRelay.Sidechannel.Basic
import PackRelay.Sidechannel.Error
import PackRelay.Sidechannel.Session
import PackRelay.Stream.Connection
import PackRelay.Stream.Sink
import PackRelay.Stream.Source
import PackRelay.Text.Binary64
import PackRelay.Text.Hex
import PackRelay.Text.Printable
import PackRelay.Text.Quoted
import PackRelay.Text.Split
import PackRelay.Text.Utf8
import PackRelay.Toml.Document
import PackRelay.Toml.Moment
import PackRelay.Toml.Number
import PackRelay.Toml.Printer
import PackRelay.Toml.Record
import PackRelay.Toml.Table
import PackRelay.Toml.Text
import PackRelay.Toml.Value
import PackRelay.Url.Domain
import PackRelay.Url.Error
import PackRelay.Url.Host
import PackRelay.Url.Ipv4
import PackRelay.Url.Ipv6
import PackRelay.Url.Parse
import PackRelay.Url.Path
import PackRelay.Url.Percent
import PackRelay.Url.Punycode
import PackRelay.Uuid
import PackRelay.Wire.Error
import PackRelay.Wire.Frame
import PackRelay.Wire.Message
