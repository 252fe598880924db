import DistributedMathArh.Lib.Transition
import DistributedMathArh.Lib.Tiling
import DistributedMathArh.Lib.FinmapSum
import DistributedMathArh.Common.Solutions
import DistributedMathArh.Common.FormatText
import DistributedMathArh.Network.Normalisation
import DistributedMathArh.Network.NetworkTypes
import DistributedMathArh.Network.Lifecycle
import DistributedMathArh.Network.TaskParameters
import DistributedMathArh.MainNode.Binding
import DistributedMathArh.MainNode.Delivery
import DistributedMathArh.MainNode.Limits
import DistributedMathArh.MainNode.Speeds
import DistributedMathArh.MainNode.RestFailures
import DistributedMathArh.Cluster.Bench
import DistributedMathArh.Cluster.Agreement
import DistributedMathArh.Cluster.Total
import DistributedMathArh.MathCore.Solve
import DistributedMathArh.MathCore.Permutation
import DistributedMathArh.MathCore.Rotation
import DistributedMathArh.MathCore.Reuse
import DistributedMathArh.Db.Accounts
import DistributedMathArh.Db.Documents
import DistributedMathArh.Db.Nodes
import DistributedMathArh.MathCore.Operations
import DistributedMathArh.MathCore.MatrixText
import DistributedMathArh.Parallel.Nesting
import DistributedMathArh.Parallel.Threads
import DistributedMathArh.Testing.FileHandler
import DistributedMathArh.Testing.BenchmarkHandler
import DistributedMathArh.Testing.CartesianProduct
import DistributedMathArh.CompNode.Requests
import DistributedMathArh.Db.Timestamps
import DistributedMathArh.Db.Journal
import DistributedMathArh.Db.Lifecycle
import DistributedMathArh.Db.References
import DistributedMathArh.Cluster.Execution
import DistributedMathArh.MathCore.Symmetry
import DistributedMathArh.Cluster.Roster
import DistributedMathArh.Cluster.Average
import DistributedMathArh.Db.Overlap
import DistributedMathArh.Network.RestRequests
import DistributedMathArh.CompNode.Benchmark
import DistributedMathArh.MainNode.Controller
import DistributedMathArh.Cluster.Experiment
import DistributedMathArh.CompNode.Sessions
