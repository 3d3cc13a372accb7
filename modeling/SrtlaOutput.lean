import SrtlaOutput.Lib.Schedule
import SrtlaOutput.Engine.Range
import SrtlaOutput.Engine.Ipv4
import SrtlaOutput.Engine.Outage
import SrtlaOutput.Engine.Polling
import SrtlaOutput.Engine.Visible
import SrtlaOutput.Engine.Restart
import SrtlaOutput.Lib.Mailbox
import SrtlaOutput.Runner.Defs
import SrtlaOutput.Engine.Links
import SrtlaOutput.Runner.OperatorChoice
import SrtlaOutput.Runner.LastLink
import SrtlaOutput.Dock.Defs
import SrtlaOutput.Dock.Selection
import SrtlaOutput.Lib.Blocks
import SrtlaOutput.Media.Sink
import SrtlaOutput.Media.Output
import SrtlaOutput.Media.Reopen
import SrtlaOutput.Lib.Chain
import SrtlaOutput.Media.Transport
import SrtlaOutput.Media.Resume
import SrtlaOutput.Engine.Atomic
import SrtlaOutput.Control.Defs
import SrtlaOutput.Control.Startup
import SrtlaOutput.Control.Frame
import SrtlaOutput.Control.Ceiling
import SrtlaOutput.Control.Phases
import SrtlaOutput.Control.Manual
import SrtlaOutput.Control.Borrowed
import SrtlaOutput.Lib.Resource
import SrtlaOutput.Session.Defs
import SrtlaOutput.Session.Sockets
import SrtlaOutput.Session.Status
import SrtlaOutput.Media.Accounting
import SrtlaOutput.Lib.Json
import SrtlaOutput.Lib.JsonWriter
import SrtlaOutput.Config.Defs
import SrtlaOutput.Config.Escape
import SrtlaOutput.Config.RoundTrip
import SrtlaOutput.Runner.Reactivation
import SrtlaOutput.Abr.Congestion
import SrtlaOutput.Abr.RateLimits
import SrtlaOutput.Abr.Floor
import SrtlaOutput.Abr.Baselines
import SrtlaOutput.Abr.Steady
import SrtlaOutput.Engine.Published
import SrtlaOutput.Engine.Receive
import SrtlaOutput.Media.Window
import SrtlaOutput.Config.Agreement
import SrtlaOutput.Runner.Turns
import SrtlaOutput.Runner.Refresh
import SrtlaOutput.Engine.Aggregate
import SrtlaOutput.Engine.Telemetry
import SrtlaOutput.Media.Packetise
import SrtlaOutput.Lib.Latest
import SrtlaOutput.Lib.Percent
import SrtlaOutput.Config.LegacyUrl
import SrtlaOutput.Config.Endpoint
import SrtlaOutput.Config.DockUrl
import SrtlaOutput.Config.LegacyItems
import SrtlaOutput.Config.LegacyReaders
import SrtlaOutput.Lib.Pacing
import SrtlaOutput.Session.Pacing
import SrtlaOutput.Control.Fatal
import SrtlaOutput.Control.OwnRun
import SrtlaOutput.Control.Misdirected
import SrtlaOutput.Lib.Memory
import SrtlaOutput.Dock.Stats
import SrtlaOutput.Lib.Utf8
import SrtlaOutput.Session.Utf8
import SrtlaOutput.Lib.Separated
import SrtlaOutput.Config.EnabledLinks
import SrtlaOutput.Config.LinkText
import SrtlaOutput.Lib.BigEndian
import SrtlaOutput.Wire.Defs
import SrtlaOutput.Wire.Frames
import SrtlaOutput.Wire.LossList
import SrtlaOutput.Wire.Handshake
import SrtlaOutput.Lib.Established
import SrtlaOutput.Lib.Scan
import SrtlaOutput.Lib.Sweep
import SrtlaOutput.Lib.InOrder
import SrtlaOutput.Uplink.Defs
import SrtlaOutput.Uplink.Connection
import SrtlaOutput.Uplink.Link
import SrtlaOutput.Bond.Sequence
import SrtlaOutput.Bond.Registration
import SrtlaOutput.Bond.Selection
import SrtlaOutput.Bond.Defs
import SrtlaOutput.Bond.Ledger
import SrtlaOutput.Bond.Refinement
import SrtlaOutput.Bond.Runner
import SrtlaOutput.Bond.Client
import SrtlaOutput.Bond.Grants
import SrtlaOutput.Bond.Bounds
import SrtlaOutput.Bond.Losses
import SrtlaOutput.Bond.Credit
import SrtlaOutput.Bond.Order
import SrtlaOutput.Bond.Gates
import SrtlaOutput.Bond.Choice
import SrtlaOutput.Bond.Standby
import SrtlaOutput.Bond.Settled
import SrtlaOutput.Lib.Serial
import SrtlaOutput.Uplink.Acks
import SrtlaOutput.Lib.Dwell
import SrtlaOutput.Uplink.LinkCc
import SrtlaOutput.Uplink.Backoff
import SrtlaOutput.Uplink.Stall
import SrtlaOutput.Bond.Sender
import SrtlaOutput.Bond.Latches
