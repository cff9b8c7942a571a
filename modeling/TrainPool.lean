import TrainPool.Library.Execution
import TrainPool.Library.Table
import TrainPool.Library.Slice
import TrainPool.Library.Bytes
import TrainPool.Config
import TrainPool.Memory.Block
import TrainPool.Memory.LocalRam
import TrainPool.Transport.Bitmap
import TrainPool.Transport.Packet
import TrainPool.Transport.Codec
import TrainPool.Transport.Sender
import TrainPool.Transport.Rounds
import TrainPool.Transport.Reader
import TrainPool.Transport.Handshake
import TrainPool.Runtime.Udp
import TrainPool.Runtime.Daemon
import TrainPool.Runtime.Blocks
import TrainPool.Runtime.Sessions
import TrainPool.Runtime.Reassembly
import TrainPool.Runtime.Write
import TrainPool.Memory.Metadata
import TrainPool.Memory.Residency
import TrainPool.Memory.Directory
import TrainPool.Cluster.Publication
import TrainPool.Cluster.Membership
import TrainPool.Cluster.Leader
import TrainPool.Cluster.Restart
import TrainPool.Cluster.Acceptance
import TrainPool.Cluster.Epochs
import TrainPool.Cluster.Lost
import TrainPool.Cluster.Migration
import TrainPool.Cluster.Copies
import TrainPool.Cluster.Effects
import TrainPool.Cluster.Foreign
import TrainPool.Cluster.Safety
import TrainPool.Runtime.Completion
import TrainPool.Runtime.Duplicates
import TrainPool.Cluster.Affected
import TrainPool.Library.Gauge
import TrainPool.Library.Dataflow
import TrainPool.Library.Liveness
import TrainPool.Torch.Graph
import TrainPool.Torch.Admission
import TrainPool.Torch.Handles
import TrainPool.Torch.Execute
import TrainPool.Torch.Forward
import TrainPool.Torch.Reverse
import TrainPool.Torch.Backward
import TrainPool.Torch.Lifetimes
import TrainPool.Torch.Cotangents
import TrainPool.Torch.Training
import TrainPool.Torch.Step
import TrainPool.Torch.Atomic
import TrainPool.Torch.Entries
import TrainPool.Torch.Checkpoint
import TrainPool.Torch.Reload
import TrainPool.Library.Mirror
import TrainPool.Torch.Sequential
import TrainPool.Torch.Alone
import TrainPool.Torch.Coherent
import TrainPool.Torch.Passes
import TrainPool.Torch.Transparent
import TrainPool.Memory.Accounting
import TrainPool.Memory.Headroom
import TrainPool.Cluster.Allocate
import TrainPool.Cluster.Placement
import TrainPool.Runtime.Buffers
import TrainPool.Runtime.Link
import TrainPool.Transport.Retries
import TrainPool.Transport.Noise
import TrainPool.Runtime.Incoming
import TrainPool.Runtime.Batch
import TrainPool.Runtime.Replies
import TrainPool.Runtime.Receiver
import TrainPool.Runtime.Exchange
import TrainPool.Runtime.Lossless
import TrainPool.Runtime.Needless
import TrainPool.Runtime.FinPhase
import TrainPool.Runtime.WritePaths
import TrainPool.Runtime.Ranges
import TrainPool.Transport.Reports
import TrainPool.Runtime.ReadReports
import TrainPool.Runtime.Reported
import TrainPool.Runtime.Metrics
import TrainPool.Runtime.ReadRange
import TrainPool.Library.Failing
import TrainPool.Library.Holdings
import TrainPool.Torch.TensorStore
import TrainPool.Torch.Backing
import TrainPool.Torch.WriteBacking
import TrainPool.Torch.Evictions
import TrainPool.Torch.Moves
import TrainPool.Torch.Exclusive
import TrainPool.Torch.Truth
import TrainPool.Torch.Prefetch
import TrainPool.Torch.Returned
import TrainPool.Torch.Arranged
import TrainPool.Torch.Capacity
import TrainPool.Torch.Preflight
import TrainPool.Library.Cover
import TrainPool.Runtime.Accepted
import TrainPool.Torch.Activation
import TrainPool.Torch.Selection
import TrainPool.Transport.Segments
import TrainPool.Torch.Resumed
import TrainPool.Cluster.Freed
import TrainPool.Torch.Trained
import TrainPool.Cluster.Agreement
import TrainPool.Cluster.Pressure
import TrainPool.Cluster.Planner
import TrainPool.Runtime.TcpCalls
