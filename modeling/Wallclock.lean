import Wallclock.Library.FixedPoint
import Wallclock.Library.Machine
import Wallclock.Library.Paging
import Wallclock.Library.Path
import Wallclock.Library.Ranges
import Wallclock.Core.Advertising
import Wallclock.Core.AttTypes
import Wallclock.Core.Bearer
import Wallclock.Core.Callbacks
import Wallclock.Core.ClockFace
import Wallclock.Core.Command
import Wallclock.Core.Creation
import Wallclock.Core.Database
import Wallclock.Core.GattDbEdit
import Wallclock.Core.GattServer
import Wallclock.Core.Resources
import Wallclock.Core.Server
import Wallclock.Core.ServerThread
import Wallclock.Core.Signals
import Wallclock.Theory.Accepted
import Wallclock.Theory.Advertising
import Wallclock.Theory.Bearer
import Wallclock.Theory.Calls
import Wallclock.Theory.Command
import Wallclock.Theory.Creation
import Wallclock.Theory.Database
import Wallclock.Theory.Discovery
import Wallclock.Theory.Dispatch
import Wallclock.Theory.FaceTime
import Wallclock.Theory.FaceTimeArg
import Wallclock.Theory.FaceTimeValue
import Wallclock.Theory.Handles
import Wallclock.Theory.Hangup
import Wallclock.Theory.Loop
import Wallclock.Theory.Ownership
import Wallclock.Theory.PrepareQueue
import Wallclock.Theory.Procedures
import Wallclock.Theory.Progress
import Wallclock.Theory.Protocol
import Wallclock.Theory.Reads
import Wallclock.Theory.Responses
import Wallclock.Theory.Sending
import Wallclock.Theory.Served
import Wallclock.Theory.Session
import Wallclock.Theory.Signals
import Wallclock.Theory.Status
import Wallclock.Theory.Subscription
import Wallclock.Theory.Termination
import Wallclock.Theory.Time
import Wallclock.Theory.Transport
import Wallclock.Theory.Turns
import Wallclock.Theory.Writes
