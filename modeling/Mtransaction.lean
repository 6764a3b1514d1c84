import Mtransaction.Lib.WeightedScan
import Mtransaction.Lib.Assignment
import Mtransaction.Lib.Counters
import Mtransaction.Lib.Provenance
import Mtransaction.Lib.SocketAddr
import Mtransaction.Lib.Json
import Mtransaction.Server.Types
import Mtransaction.Server.Redundancy
import Mtransaction.Server.SamplingLaw
import Mtransaction.Server.FanOut
import Mtransaction.Server.PublishRecord
import Mtransaction.Server.LeaderPipeline
import Mtransaction.Server.LeaderCoherence
import Mtransaction.Server.RpcServer
import Mtransaction.Server.StakeUpdates
import Mtransaction.Server.RttMeans
import Mtransaction.Server.RequestGate
import Mtransaction.Server.Health
import Mtransaction.Server.SignatureWatcher
import Mtransaction.Server.SignatureChecker
import Mtransaction.Server.StatusLog
import Mtransaction.Server.Outcomes
import Mtransaction.Server.TxStream
import Mtransaction.Server.ConnectedStake
import Mtransaction.Server.LockedServer
import Mtransaction.Server.ServerTasks
import Mtransaction.Server.Serialization
import Mtransaction.Server.ChannelOrder
import Mtransaction.Server.Attribution
import Mtransaction.Server.Ledger
import Mtransaction.Server.Origins
import Mtransaction.Client.Reload
import Mtransaction.Client.Forwarder
import Mtransaction.Client.GrpcClient
import Mtransaction.Client.Throttling
import Mtransaction.Client.Draining
import Mtransaction.Client.MetricsFeed
import Mtransaction.Client.Process
import Mtransaction.Client.Serving
import Mtransaction.Agreement
import Mtransaction.PingPong
import Mtransaction.Server.ClientReports
import Mtransaction.Server.RttReports
import Mtransaction.Deployment
import Mtransaction.Authenticity
import Mtransaction.Reporting
