import Cled.Clipboard.Service
import Cled.Clipboard.Schedule
import Cled.Sync.Window
import Cled.Sync.Convergence
import Cled.Sync.NewestWins
import Cled.Sync.Reaching
import Cled.Lan.Duplicates
import Cled.Lan.Simultaneous
import Cled.Lan.LocalWord
import Cled.Lan.Connections
import Cled.Lan.Group
import Cled.Lan.Removals
import Cled.Lan.Gossip
import Cled.Lan.Retrying
import Cled.Lan.Delivered
import Cled.Lan.KeepAlive
import Cled.Lan.Settled
import Cled.Desktop.Answered
import Cled.Lan.Joining
import Cled.Lan.Discovery
import Cled.Lan.ShownCodes
import Cled.Desktop.Received
import Cled.Desktop.Genuine
import Cled.Desktop.AlreadyThere
import Cled.Lan.Noise
import Cled.Relay.Live
import Cled.Relay.Isolation
import Cled.Relay.Newer
import Cled.Desktop.Agreement
import Cled.Desktop.Reconnecting
import Cled.Desktop.Settings
import Cled.Desktop.Streams
import Cled.Desktop.SignedIn
import Cled.Clipboard.Holder
import Cled.Lan.Addresses
import Cled.Sync.Echoes
import Cled.Lan.Code
import Cled.Lan.Idle
import Cled.Lan.Exempt
import Cled.Relay.Objects
import Cled.Lan.Honest
import Cled.Lan.PeerFile
import Cled.Desktop.Canonical
import Cled.Core.Files
import Cled.Desktop.Installation
import Cled.Desktop.Restarting
import Cled.Desktop.Saved
import Cled.Desktop.JoinStatus
