import Neutun.Foundation.Machine
import Neutun.Foundation.Channel
import Neutun.Foundation.Utf8
import Neutun.Foundation.Reader
import Neutun.Foundation.Scanner
import Neutun.Foundation.Quoting
import Neutun.Foundation.SecondaryIndex
import Neutun.Foundation.Conduit
import Neutun.Foundation.Codec
import Neutun.Foundation.FileSystem
import Neutun.Foundation.FileTable
import Neutun.Foundation.CommandLine
import Neutun.Foundation.Dialogue
import Neutun.Wire
import Neutun.Server.Connections
import Neutun.Server.Auth
import Neutun.Server.Routing
import Neutun.Server.Wildcards
import Neutun.Server.State
import Neutun.Server.Peek
import Neutun.Server.Lifecycle
import Neutun.Server.Refinement
import Neutun.Server.Ownership
import Neutun.Server.Admission
import Neutun.Server.Tokens
import Neutun.Server.ClientIp
import Neutun.Server.Succession
import Neutun.Server.Rules
import Neutun.Server.Isolation
import Neutun.Server.Delivery
import Neutun.Server.Feed
import Neutun.Server.Grammar
import Neutun.Server.StreamTable
import Neutun.Server.Interleaving
import Neutun.Server.Taken
import Neutun.Client.State
import Neutun.Client.Streams
import Neutun.Client.Failures
import Neutun.Client.Readers
import Neutun.Client.Tunnels
import Neutun.Client.Uplink
import Neutun.Client.Progress
import Neutun.Client.Introspect
import Neutun.Client.Replays
import Neutun.Network.State
import Neutun.Network.Routes
import Neutun.Network.Downlink
import Neutun.Network.Closing
import Neutun.Network.Uplink
import Neutun.Network.Progress
import Neutun.Network.StreamTable
import Neutun.Network.Reconnect
import Neutun.Cli.Settings
import Neutun.Cli.Config
import Neutun.Cli.Sessions
import Neutun.Cli.Migration
import Neutun.Cli.Daemons
import Neutun.Cli.Signals
import Neutun.Cli.Arguments
import Neutun.Cli.Resolution
import Neutun.Cli.ConfigFile
import Neutun.Cli.Saves
import Neutun.Cli.DaemonFiles
import Neutun.Cli.SavesListing
import Neutun.Cli.Interactive
import Neutun.Cli.Quoting
import Neutun.Server.Environment
