import Bycorf.Dpdk.PacketRuns
import Bycorf.Dpdk.PacketWake
import Bycorf.Dpdk.Ports
import Bycorf.Dpdk.Replies
import Bycorf.IoUring.Cancel
import Bycorf.Net.Accepting
import Bycorf.Net.Admission
import Bycorf.Net.Conserved
import Bycorf.Net.Http
import Bycorf.Net.Readers
import Bycorf.Net.Reuse
import Bycorf.Net.ServiceStop
import Bycorf.Net.Shutdown
import Bycorf.Net.StreamRuns
import Bycorf.Net.UnixListener
import Bycorf.Net.WriteAll
import Bycorf.Rpc.Loops
import Bycorf.Rpc.Storage
import Bycorf.Runtime.Barrier
import Bycorf.Runtime.ForeignExecutor
import Bycorf.Runtime.Handoff
import Bycorf.Runtime.Launch
import Bycorf.Runtime.RoundTrip
import Bycorf.Runtime.StopRequest
import Bycorf.Runtime.Yielding
import Bycorf.Runtime.Turns
import Bycorf.Runtime.Background
import Bycorf.Runtime.Durability
import Bycorf.Spdk.Transfers
import Bycorf.Net.TlsOutput
import Bycorf.Spdk.Sync
import Bycorf.Spdk.Path
import Bycorf.Runtime.Detached
import Bycorf.Dpdk.Uiomove
import Bycorf.Dpdk.SocketTable
