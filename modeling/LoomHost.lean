import LoomHost.Theory.Reassembly.Fate
import LoomHost.Theory.Reassembly.Duplicates
import LoomHost.Theory.Reassembly.Recovery
import LoomHost.Theory.Reassembly.Whole
import LoomHost.Theory.Reassembly.Cadence
import LoomHost.Theory.Reassembly.Representation
import LoomHost.Theory.Datagram
import LoomHost.Theory.Media
import LoomHost.Theory.Pace
import LoomHost.Theory.Control
import LoomHost.Theory.Session.Generations
import LoomHost.Theory.Session.Sizes
import LoomHost.Theory.BadFrames
import LoomHost.Theory.System.Lifetime
import LoomHost.Theory.System.Advertised
import LoomHost.Theory.Numbers
import LoomHost.Theory.System.Requests
import LoomHost.Theory.ClockSync
import LoomHost.Theory.Decoding
import LoomHost.Theory.Canonical
import LoomHost.Theory.Grammar
import LoomHost.Theory.Session.Reconfigured
import LoomHost.Theory.Session.Features
import LoomHost.Theory.Compat
import LoomHost.Theory.Replies
import LoomHost.Theory.Integers
import LoomHost.Lib.LengthPrefixed
import LoomHost.Core.AnnexB
import LoomHost.Theory.AnnexB
import LoomHost.Lib.Checked
import LoomHost.Core.Frame
import LoomHost.Core.Convert
import LoomHost.Theory.Convert
import LoomHost.Core.Nv12
import LoomHost.Theory.Nv12
import LoomHost.Core.Capture
import LoomHost.Lib.LatestValue
import LoomHost.Theory.Capture
import LoomHost.Core.TestPattern
import LoomHost.Theory.TestPattern
import LoomHost.Theory.System.Closing
import LoomHost.Lib.Exclusive
import LoomHost.Core.Daemon
import LoomHost.Theory.Daemon.Permit
import LoomHost.Theory.System.Threads
import LoomHost.Theory.Reassembly.InOrder
import LoomHost.Theory.System.Restored
import LoomHost.Lib.Delay
import LoomHost.Core.Encoders
import LoomHost.Theory.Encoders.X265
import LoomHost.Theory.Encoders.Nvenc
import LoomHost.Theory.Encoders.Live
import LoomHost.Theory.Encoders.VideoToolbox
import LoomHost.Core.Client
import LoomHost.Theory.Client.Handshake
import LoomHost.Theory.System.Wired
import LoomHost.Core.Screencast
import LoomHost.Theory.Screencast.Failure
import LoomHost.Lib.Decimal
import LoomHost.Lib.Fields
import LoomHost.Lib.Traverse
import LoomHost.Theory.Displays
import LoomHost.Core.Keymap
import LoomHost.Theory.Keymap
