import MasterRelay.Client.SampleHold
import MasterRelay.Client.Counters
import MasterRelay.Client.Startup
import MasterRelay.Client.Connection
import MasterRelay.ThreadSafe.SafeQueue
import MasterRelay.Server.History
import MasterRelay.Game.Capacity
import MasterRelay.Game.Presence
import MasterRelay.Server.Identity
import MasterRelay.Game.Delivery
import MasterRelay.Game.Inputs
import MasterRelay.Protocol.Selection
import MasterRelay.Protocol.Narrowing
import MasterRelay.Client.Positions
import MasterRelay.Server.Registration
import MasterRelay.Protocol.ExtraKey
import MasterRelay.Protocol.PosList
import MasterRelay.Game.Welcome
import MasterRelay.Server.RecordIndex
import MasterRelay.Server.Aliasing
import MasterRelay.Server.Faults
import MasterRelay.Client.Hosts
import MasterRelay.Client.SharedHandles
import MasterRelay.Client.Handshake
import MasterRelay.Game.Buffers
import MasterRelay.Client.Granularity
import MasterRelay.Client.Blocks
import MasterRelay.Client.Commands
import MasterRelay.Game.Replication
import MasterRelay.Game.Range
import MasterRelay.Game.Progress
import MasterRelay.Game.Interleaved
import MasterRelay.Game.Serial
import MasterRelay.Game.Response
import MasterRelay.Game.Packets
