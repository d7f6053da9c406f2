import MiddlewareBench.Lib.Bytes
import MiddlewareBench.Lib.EvenSplit
import MiddlewareBench.Lib.InOrder
import MiddlewareBench.Vsomeip.ChunkPlan
import MiddlewareBench.Vsomeip.EventService
import MiddlewareBench.Vsomeip.RoundTrip
import MiddlewareBench.Bench.MtCredits
import MiddlewareBench.Vsomeip.Deliveries
import MiddlewareBench.Vsomeip.EchoAttribution
import MiddlewareBench.Vsomeip.SentHeaders
import MiddlewareBench.Net.PingAttribution
import MiddlewareBench.Snapshot.Agreement
import MiddlewareBench.Snapshot.Malformed
import MiddlewareBench.Snapshot.Grid
import MiddlewareBench.Bench.TimedTake
import MiddlewareBench.Bench.SampleMeta
import MiddlewareBench.Bench.Percentile
import MiddlewareBench.Net.HostPort
import MiddlewareBench.Bench.PingPong
import MiddlewareBench.Bench.MtRuns
import MiddlewareBench.Vsomeip.Handshake
import MiddlewareBench.Vsomeip.Builds
import MiddlewareBench.Vsomeip.EchoReport
import MiddlewareBench.Snapshot.PartialRun
import MiddlewareBench.Snapshot.RunSh
import MiddlewareBench.Net.Report
