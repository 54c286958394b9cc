import RtlsStream.Foundation.Machine
import RtlsStream.Foundation.Newest
import RtlsStream.Python.RoundTrip
import RtlsStream.Store.Transaction
import RtlsStream.History.Paging
import RtlsStream.Consumer.Delivery
import RtlsStream.Live.Monotone
import RtlsStream.Python.Print
import RtlsStream.Python.Repr
import RtlsStream.StreamHandler.Event
import RtlsStream.StreamHandler.LS1000Parser
import RtlsStream.Receiver.Validate
import RtlsStream.StreamHandler.JsonNormalizer
import RtlsStream.Receiver.Envelope
import RtlsStream.Receiver.Serve
import RtlsStream.Python.Encodable
import RtlsStream.Receiver.Accepted
import RtlsStream.Receiver.Published
import RtlsStream.Receiver.EventTime
import RtlsStream.Pipeline.LastKnown
import RtlsStream.Consumer.Redelivery
import RtlsStream.Live.Broadcast
import RtlsStream.Live.Connection
import RtlsStream.Foundation.Ties
import RtlsStream.History.QuietLoad
import RtlsStream.Foundation.TwoRuns
import RtlsStream.StreamHandler.PathsAgree
import RtlsStream.Receiver.TraceTransparent
import RtlsStream.Store.Statements
import RtlsStream.Receiver.Origin
import RtlsStream.Pipeline.SameRecord
import RtlsStream.StreamHandler.Coordinates
import RtlsStream.Pipeline.Finite
import RtlsStream.Foundation.Overflow
import RtlsStream.Python.JsonLimits
import RtlsStream.Python.Nesting
import RtlsStream.StreamHandler.Reported
import RtlsStream.Receiver.SchemaFields
import RtlsStream.Python.Padding
import RtlsStream.StreamHandler.Grammar
import RtlsStream.StreamHandler.TagId
import RtlsStream.StreamHandler.DisplayArea
import RtlsStream.Python.Numerals
import RtlsStream.StreamHandler.TextFormat
import RtlsStream.Player.Hook
import RtlsStream.Player.Clock
import RtlsStream.Player.Loop
import RtlsStream.Player.Shown
import RtlsStream.Sql.Text
import RtlsStream.Sql.Select
import RtlsStream.Foundation.Effects
import RtlsStream.History.Endpoint
import RtlsStream.Consumer.Handlers
import RtlsStream.Consumer.Interchange
import RtlsStream.Generator.Lines
import RtlsStream.Generator.Send
import RtlsStream.Generator.RoundTrip
import RtlsStream.Consumer.Summary
import RtlsStream.Live.Stale
import RtlsStream.Foundation.Expiry
import RtlsStream.Live.EventRate
import RtlsStream.StreamHandler.Idempotent
import RtlsStream.StreamHandler.PackedCoordinates
import RtlsStream.History.TagHistory
import RtlsStream.Foundation.Recovery
import RtlsStream.Deployment.Devices
import RtlsStream.Consumer.Prefetch
import RtlsStream.Live.Sessions
import RtlsStream.Live.Reconnect
import RtlsStream.Player.Playback
import RtlsStream.History.LoadTimes
import RtlsStream.Deployment.Replay
import RtlsStream.Deployment.Maps
import RtlsStream.Consumer.Unstorable
import RtlsStream.Foundation.Topic
import RtlsStream.Config.Settings
import RtlsStream.Config.Routing
import RtlsStream.Config.Loading
import RtlsStream.App.Screen
import RtlsStream.App.Loads
import RtlsStream.App.Asked
import RtlsStream.App.Panels
import RtlsStream.Receiver.EnvelopeSchema
import RtlsStream.Receiver.Publisher
import RtlsStream.App.IndoorMap
