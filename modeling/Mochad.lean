import Mochad.Bytes
import Mochad.Config
import Mochad.Core.Acceptance
import Mochad.Core.Agreement
import Mochad.Core.Broadcast
import Mochad.Core.Clients
import Mochad.Core.Closing
import Mochad.Core.Daemon
import Mochad.Core.Deadline
import Mochad.Core.Diagnostics
import Mochad.Core.Faults
import Mochad.Core.Fifo
import Mochad.Core.Identity
import Mochad.Core.InOrder
import Mochad.Core.Iteration
import Mochad.Core.Kinds
import Mochad.Core.Loop
import Mochad.Core.Moves
import Mochad.Core.Observers
import Mochad.Core.OpenRemote
import Mochad.Core.Pace
import Mochad.Core.Ports
import Mochad.Core.Process
import Mochad.Core.Reads
import Mochad.Core.Release
import Mochad.Core.SendAll
import Mochad.Core.Service
import Mochad.Core.Slots
import Mochad.Core.Stall
import Mochad.Core.StatusReport
import Mochad.Core.Steps
import Mochad.Core.Tables
import Mochad.Core.Texts
import Mochad.Core.UsbSide
import Mochad.Core.X10Side
import Mochad.Core.XmlFraming
import Mochad.Env
import Mochad.Library.Assignment
import Mochad.Library.Expiry
import Mochad.Library.Framing
import Mochad.Library.Grouping
import Mochad.Library.Json
import Mochad.Library.Register
import Mochad.Library.Replica
import Mochad.Library.Ring
import Mochad.Library.Script
import Mochad.Library.Trace
import Mochad.Library.Transition
import Mochad.Numerals
import Mochad.Settings.Lines
import Mochad.Settings.Precedence
import Mochad.Settings.Sources
import Mochad.Settings.Values
import Mochad.Setup.DryRun
import Mochad.Setup.Effects
import Mochad.Setup.Installation
import Mochad.Setup.Refusals
import Mochad.Setup.Removal
import Mochad.Setup.Shell
import Mochad.Setup.Tool
import Mochad.Usb.Endpoints
import Mochad.Usb.Invariant
import Mochad.Usb.Pacing
import Mochad.Usb.Transfers
import Mochad.X10.Announcements
import Mochad.X10.Answers
import Mochad.X10.Arguments
import Mochad.X10.Decode
import Mochad.X10.Devices
import Mochad.X10.Duplicates
import Mochad.X10.Encode
import Mochad.X10.EventLines
import Mochad.X10.Groups
import Mochad.X10.Insulation
import Mochad.X10.Lines
import Mochad.X10.Markers
import Mochad.X10.Mirror
import Mochad.X10.PassThrough
import Mochad.X10.PowerLine
import Mochad.X10.Radio
import Mochad.X10.RadioCommands
import Mochad.X10.RadioStatus
import Mochad.X10.Rejection
import Mochad.X10.Relay
import Mochad.X10.Replies
import Mochad.X10.Reports
import Mochad.X10.SensorStatus
import Mochad.X10.Sensors
import Mochad.X10.Showing
import Mochad.X10.Stable
import Mochad.X10.StandardFrames
import Mochad.X10.State
import Mochad.X10.TableBounds
import Mochad.X10.Uptime
import Mochad.Library.Json
