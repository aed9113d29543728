import SelfKvm.Base.Wire
import SelfKvm.Base.Source
import SelfKvm.Base.Chunks
import SelfKvm.Base.Mealy
import SelfKvm.Base.Fifo
import SelfKvm.Base.Ownership
import SelfKvm.Base.Text
import SelfKvm.Proto.Message
import SelfKvm.Proto.Codec
import SelfKvm.Proto.Grammar
import SelfKvm.Net.Transport
import SelfKvm.Net.Trust
import SelfKvm.Net.TrustRuns
import SelfKvm.Core.Events
import SelfKvm.Core.Layout
import SelfKvm.Core.Server
import SelfKvm.Core.Discipline
import SelfKvm.Core.Client
import SelfKvm.Core.Agreement
import SelfKvm.Core.HeldKeys
import SelfKvm.Core.Resync
import SelfKvm.Core.FileTransfer
import SelfKvm.Daemon.FileTransfer
import SelfKvm.Daemon.HostileSender
import SelfKvm.Daemon.HonestTransfer
import SelfKvm.Daemon.Publish
import SelfKvm.Daemon.Reported
import SelfKvm.Daemon.ConcurrentReceives
import SelfKvm.Daemon.Stops
import SelfKvm.Daemon.Trespass
import SelfKvm.Daemon.Controller
import SelfKvm.Daemon.Connection
import SelfKvm.Daemon.Stored
import SelfKvm.Daemon.Admission
import SelfKvm.Daemon.Outgoing
import SelfKvm.Daemon.Geometry
import SelfKvm.Input.Capture
import SelfKvm.Input.Keyboard
import SelfKvm.Daemon.Ghosts
import SelfKvm.Base.Pairing
import SelfKvm.Core.Adjacency
import SelfKvm.Core.Bounce
import SelfKvm.Base.Scaling
import SelfKvm.Core.RoundTrip
import SelfKvm.Core.Nudges
import SelfKvm.Core.Reassembly
import SelfKvm.Daemon.FileNames
import SelfKvm.Core.Reconfigure
import SelfKvm.Input.Motion
import SelfKvm.Core.Gate
import SelfKvm.Net.Sessions
import SelfKvm.App.Grid
import SelfKvm.App.Editor
import SelfKvm.Daemon.Clipboard
import SelfKvm.Daemon.Delivery
import SelfKvm.Base.Channel
import SelfKvm.Daemon.Backpressure
import SelfKvm.App.Sessions
import SelfKvm.App.ControlDeck
import SelfKvm.Base.Switches
import SelfKvm.Input.Injection
import SelfKvm.Daemon.Receiver
import SelfKvm.Net.Certificates
import SelfKvm.App.Leftovers
import SelfKvm.App.Orphans
import SelfKvm.Daemon.Handshakes
import SelfKvm.Daemon.Stalls
