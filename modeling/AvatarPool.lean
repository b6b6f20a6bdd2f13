import AvatarPool.Artifact
import AvatarPool.Base64
import AvatarPool.Bridge.Client
import AvatarPool.Bridge.Host
import AvatarPool.Bridge.Minting
import AvatarPool.Cache
import AvatarPool.CommandLine.Arguments
import AvatarPool.CommandLine.EnvFile
import AvatarPool.CommandLine.Environment
import AvatarPool.CommandLine.Run
import AvatarPool.Dispatcher
import AvatarPool.Engine
import AvatarPool.Event
import AvatarPool.Failure
import AvatarPool.Gate
import AvatarPool.Host.Lines
import AvatarPool.Host.Writer
import AvatarPool.Identicon.Engine
import AvatarPool.Identicon.Name
import AvatarPool.Identicon.Paint
import AvatarPool.Job
import AvatarPool.Json.Binary64
import AvatarPool.Json.Decode
import AvatarPool.Json.Number
import AvatarPool.Json.Printer
import AvatarPool.Json.Token
import AvatarPool.Json.Value
import AvatarPool.Main
import AvatarPool.Pending
import AvatarPool.Picture
import AvatarPool.Png
import AvatarPool.Pool.Slots
import AvatarPool.Pool.Worker
import AvatarPool.Proofs.Bridge.Accounts
import AvatarPool.Proofs.Bridge.Answers
import AvatarPool.Proofs.Bridge.FailedPosts
import AvatarPool.Proofs.Bridge.Ledger
import AvatarPool.Proofs.Bridge.Moves
import AvatarPool.Proofs.Bridge.Notifications
import AvatarPool.Proofs.Bridge.Purity
import AvatarPool.Proofs.Bridge.Reordering
import AvatarPool.Proofs.Bridge.Requests
import AvatarPool.Proofs.Bridge.Routing
import AvatarPool.Proofs.Bridge.Settling
import AvatarPool.Proofs.Checked
import AvatarPool.Proofs.Dispatch.Answers
import AvatarPool.Proofs.Dispatch.Boxes
import AvatarPool.Proofs.Dispatch.Counters
import AvatarPool.Proofs.Dispatch.Deeds
import AvatarPool.Proofs.Dispatch.Gating
import AvatarPool.Proofs.Dispatch.HandOvers
import AvatarPool.Proofs.Dispatch.Laws
import AvatarPool.Proofs.Dispatch.Ledger
import AvatarPool.Proofs.Dispatch.Purity
import AvatarPool.Proofs.Dispatch.Queueing
import AvatarPool.Proofs.Dispatch.Slots
import AvatarPool.Proofs.Dispatch.Standing
import AvatarPool.Proofs.Dispatch.Stopping
import AvatarPool.Proofs.Dispatch.Tally
import AvatarPool.Proofs.Gate.Chronicle
import AvatarPool.Proofs.Gate.Histories
import AvatarPool.Proofs.Gate.Timeline
import AvatarPool.Proofs.Identicon.Likeness
import AvatarPool.Proofs.Identicon.Painting
import AvatarPool.Proofs.Json.Grammar
import AvatarPool.Proofs.Json.Lexing
import AvatarPool.Proofs.Json.Members
import AvatarPool.Proofs.Json.Printed
import AvatarPool.Proofs.Json.Reading
import AvatarPool.Proofs.Json.Skimming
import AvatarPool.Proofs.Pool.Reports
import AvatarPool.Proofs.Pool.Workday
import AvatarPool.Proofs.Service.Acts
import AvatarPool.Proofs.Service.Assignment
import AvatarPool.Proofs.Service.Backlog
import AvatarPool.Proofs.Service.Conservation
import AvatarPool.Proofs.Service.Counters
import AvatarPool.Proofs.Service.Deadlines
import AvatarPool.Proofs.Service.Ending
import AvatarPool.Proofs.Service.History
import AvatarPool.Proofs.Service.Invocations
import AvatarPool.Proofs.Service.Lawful
import AvatarPool.Proofs.Service.Ledger
import AvatarPool.Proofs.Service.LostGate
import AvatarPool.Proofs.Service.Moves
import AvatarPool.Proofs.Service.Purity
import AvatarPool.Proofs.Service.Queueing
import AvatarPool.Proofs.Service.Readiness
import AvatarPool.Proofs.Service.Shifts
import AvatarPool.Proofs.Service.Shutdown
import AvatarPool.Proofs.Service.SingleFlight
import AvatarPool.Proofs.Service.Steps
import AvatarPool.Proofs.Service.StopAnswers
import AvatarPool.Proofs.Service.Stopping
import AvatarPool.Proofs.Service.Story
import AvatarPool.Proofs.Service.VirtualClock
import AvatarPool.Proofs.Service.Waiters
import AvatarPool.Proofs.Service.Workdays
import AvatarPool.Proofs.Session.Agenda
import AvatarPool.Proofs.Session.Alike
import AvatarPool.Proofs.Session.AlikeSteps
import AvatarPool.Proofs.Session.AlikeTurns
import AvatarPool.Proofs.Session.Attendance
import AvatarPool.Proofs.Session.Calls
import AvatarPool.Proofs.Session.Clients
import AvatarPool.Proofs.Session.Courses
import AvatarPool.Proofs.Session.Crossings
import AvatarPool.Proofs.Session.Delivery
import AvatarPool.Proofs.Session.Departures
import AvatarPool.Proofs.Session.Duties
import AvatarPool.Proofs.Session.EndOfInput
import AvatarPool.Proofs.Session.Feeding
import AvatarPool.Proofs.Session.Handlers
import AvatarPool.Proofs.Session.Hearing
import AvatarPool.Proofs.Session.Interruption
import AvatarPool.Proofs.Session.Minted
import AvatarPool.Proofs.Session.Moves
import AvatarPool.Proofs.Session.Scene
import AvatarPool.Proofs.Session.Serving
import AvatarPool.Proofs.Session.Staff
import AvatarPool.Proofs.Session.Stages
import AvatarPool.Proofs.Session.UnreadableLine
import AvatarPool.Proofs.Session.Wiring
import AvatarPool.Proofs.Tables
import AvatarPool.Proofs.Text.Base64
import AvatarPool.Proofs.Text.Canonical
import AvatarPool.Proofs.Text.Decimal
import AvatarPool.Proofs.Text.Lines
import AvatarPool.Proofs.Text.Utf8
import AvatarPool.Proofs.Waiting.Delivery
import AvatarPool.Proofs.Waiting.Steps
import AvatarPool.Proofs.Wire.Details
import AvatarPool.Proofs.Wire.Framing
import AvatarPool.Proofs.Wire.Members
import AvatarPool.Proofs.Wire.Payload
import AvatarPool.Proofs.Wire.Pictures
import AvatarPool.Proofs.Wire.Reading
import AvatarPool.Proofs.Wire.RoundTrip
import AvatarPool.Proofs.Wire.Rows
import AvatarPool.Service
import AvatarPool.Session.Agenda
import AvatarPool.Session.Engine
import AvatarPool.Session.Hosts
import AvatarPool.Session.Links
import AvatarPool.Session.State
import AvatarPool.Session.Steps
import AvatarPool.Session.Turns
import AvatarPool.Settings
import AvatarPool.Sha256
import AvatarPool.Stats
import AvatarPool.Text.Alphanumeric
import AvatarPool.Text.Blank
import AvatarPool.Text.Decimal
import AvatarPool.Text.Graphic
import AvatarPool.Text.Quoted
import AvatarPool.Text.Ranges
import AvatarPool.Text.Utf8
import AvatarPool.Time
import AvatarPool.Trial.Bridge
import AvatarPool.Trial.Events
import AvatarPool.Trial.Gate
import AvatarPool.Trial.Pending
import AvatarPool.WaitingRoom
import AvatarPool.Wire.Request
import AvatarPool.Wire.RequestId
import AvatarPool.Wire.Response
