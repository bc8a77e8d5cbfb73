import WebSocketEngine.Application.Basic
import WebSocketEngine.Application.Script
import WebSocketEngine.Assembly.Assembler
import WebSocketEngine.Assembly.Fragments
import WebSocketEngine.CloseCode
import WebSocketEngine.Completion.Exchange
import WebSocketEngine.Completion.Future
import WebSocketEngine.Completion.Token
import WebSocketEngine.Config.Basic
import WebSocketEngine.Config.Document
import WebSocketEngine.Config.Scan
import WebSocketEngine.Config.Shared
import WebSocketEngine.Connection.Basic
import WebSocketEngine.Connection.Command
import WebSocketEngine.Connection.Driver
import WebSocketEngine.Connection.Report
import WebSocketEngine.Connection.Settle
import WebSocketEngine.ConnectionId
import WebSocketEngine.Duration
import WebSocketEngine.Failure
import WebSocketEngine.Frame
import WebSocketEngine.Host.Basic
import WebSocketEngine.Host.Events
import WebSocketEngine.Http.Headers
import WebSocketEngine.Http.Status
import WebSocketEngine.Http.Target
import WebSocketEngine.Idle.Report
import WebSocketEngine.Idle.Supervisor
import WebSocketEngine.Idle.Sweepers
import WebSocketEngine.Idle.Tracker
import WebSocketEngine.Idle.Watch
import WebSocketEngine.Log
import WebSocketEngine.Message
import WebSocketEngine.Metrics
import WebSocketEngine.Panic
import WebSocketEngine.Proofs.Assembly.Delivery
import WebSocketEngine.Proofs.Assembly.Fragmented
import WebSocketEngine.Proofs.Assembly.Handed
import WebSocketEngine.Proofs.Assembly.Reference
import WebSocketEngine.Proofs.Completion.Deeds
import WebSocketEngine.Proofs.Completion.End
import WebSocketEngine.Proofs.Completion.Forest
import WebSocketEngine.Proofs.Completion.Names
import WebSocketEngine.Proofs.Completion.Stock
import WebSocketEngine.Proofs.Completion.Tree
import WebSocketEngine.Proofs.Config.Handles
import WebSocketEngine.Proofs.Connection.Abreast
import WebSocketEngine.Proofs.Connection.Apart
import WebSocketEngine.Proofs.Connection.Asking
import WebSocketEngine.Proofs.Connection.Awake
import WebSocketEngine.Proofs.Connection.Balance
import WebSocketEngine.Proofs.Connection.Beats
import WebSocketEngine.Proofs.Connection.Closings
import WebSocketEngine.Proofs.Connection.Counting
import WebSocketEngine.Proofs.Connection.Course
import WebSocketEngine.Proofs.Connection.Demand
import WebSocketEngine.Proofs.Connection.Fair
import WebSocketEngine.Proofs.Connection.Fleet
import WebSocketEngine.Proofs.Connection.Following
import WebSocketEngine.Proofs.Connection.KeepAlive
import WebSocketEngine.Proofs.Connection.Lifecycle
import WebSocketEngine.Proofs.Connection.Order
import WebSocketEngine.Proofs.Connection.Refusals
import WebSocketEngine.Proofs.Connection.Registration
import WebSocketEngine.Proofs.Connection.Schedule
import WebSocketEngine.Proofs.Connection.Settings
import WebSocketEngine.Proofs.Connection.Silence
import WebSocketEngine.Proofs.Connection.Stage
import WebSocketEngine.Proofs.Connection.Stopping
import WebSocketEngine.Proofs.Connection.Strokes
import WebSocketEngine.Proofs.Connection.Traffic
import WebSocketEngine.Proofs.Connection.Turns
import WebSocketEngine.Proofs.Connection.Twins
import WebSocketEngine.Proofs.Connection.Waiting
import WebSocketEngine.Proofs.Connection.Watch
import WebSocketEngine.Proofs.Connection.Ways
import WebSocketEngine.Proofs.Frame.Close
import WebSocketEngine.Proofs.Frame.Codec
import WebSocketEngine.Proofs.Frame.Reason
import WebSocketEngine.Proofs.Host.Account
import WebSocketEngine.Proofs.Host.Acting
import WebSocketEngine.Proofs.Host.Alike
import WebSocketEngine.Proofs.Host.Docket
import WebSocketEngine.Proofs.Host.Fallbacks
import WebSocketEngine.Proofs.Host.Granting
import WebSocketEngine.Proofs.Host.Handling
import WebSocketEngine.Proofs.Host.Heeding
import WebSocketEngine.Proofs.Host.Kindred
import WebSocketEngine.Proofs.Host.Reopening
import WebSocketEngine.Proofs.Host.Sending
import WebSocketEngine.Proofs.Host.Stirring
import WebSocketEngine.Proofs.Host.Working
import WebSocketEngine.Proofs.Http.Fields
import WebSocketEngine.Proofs.Http.Lists
import WebSocketEngine.Proofs.Idle.Deregistering
import WebSocketEngine.Proofs.Idle.Monitoring
import WebSocketEngine.Proofs.Idle.Notices
import WebSocketEngine.Proofs.Idle.Recording
import WebSocketEngine.Proofs.Idle.Sweeping
import WebSocketEngine.Proofs.Idle.Timeouts
import WebSocketEngine.Proofs.Session.Books
import WebSocketEngine.Proofs.Session.Calls
import WebSocketEngine.Proofs.Session.Line
import WebSocketEngine.Proofs.Session.RoundTrip
import WebSocketEngine.Proofs.Upgrade.Echo
import WebSocketEngine.Proofs.Upgrade.Freezing
import WebSocketEngine.Proofs.Upgrade.Grammar
import WebSocketEngine.Proofs.Upgrade.InForce
import WebSocketEngine.Proofs.Upgrade.Narrowing
import WebSocketEngine.Proofs.Upgrade.Offers
import WebSocketEngine.Proofs.Upgrade.Outcome
import WebSocketEngine.Proofs.Upgrade.Routing
import WebSocketEngine.Proofs.Upgrade.Writing
import WebSocketEngine.Proofs.Utf8.Chunks
import WebSocketEngine.Proofs.Utf8.Offsets
import WebSocketEngine.Proofs.Utf8.Owing
import WebSocketEngine.Proofs.Utf8.Reading
import WebSocketEngine.Proofs.Utf8.Text
import WebSocketEngine.Proofs.Utf8.WellFormed
import WebSocketEngine.Session
import WebSocketEngine.Text.Blank
import WebSocketEngine.Text.Describe
import WebSocketEngine.Text.Quoted
import WebSocketEngine.Text.Unprintable
import WebSocketEngine.Upgrade.Attempt
import WebSocketEngine.Upgrade.Endpoint
import WebSocketEngine.Upgrade.Fault
import WebSocketEngine.Upgrade.Negotiator
import WebSocketEngine.Upgrade.Pattern
import WebSocketEngine.Upgrade.Request
import WebSocketEngine.Upgrade.Response
import WebSocketEngine.Upgrade.Routes
import WebSocketEngine.Utf8.Lossy
import WebSocketEngine.Utf8.Sequence
import WebSocketEngine.Utf8.Validator
