import Cfio.Transition
import Cfio.RequestServer
import Cfio.JobConfig
import Cfio.BufferPool
import Cfio.Generators
import Cfio.EngineUtils
import Cfio.Log2Histogram
import Cfio.LibaioEngine
import Cfio.SyncEngines
import Cfio.IoUringEngine
import Cfio.EngineReports
import Cfio.WorkerThread
import Cfio.WorkerSlots
import Cfio.StopProtocol
import Cfio.WorkerAccounting
import Cfio.WorkerRequests
import Cfio.EngineUsage
import Cfio.Fallible
import Cfio.FilePreparator
import Cfio.FileCleanup
import Cfio.OrderStatistics
import Cfio.HistogramOrder
import Cfio.Interference
import Cfio.MetricsAggregator
import Cfio.SnapshotReads
import Cfio.SnapshotLatency
import Cfio.SnapshotDeltas
import Cfio.ConfigSoundness
import Cfio.IntegerText
import Cfio.ConfigParsers
import Cfio.ParserAgreement
import Cfio.CsvText
import Cfio.ResultsExporter
import Cfio.SizeGrammar
import Cfio.SlidingWindow
import Cfio.TimeSeries
import Cfio.HistogramReads
import Cfio.SamplingRun
import Cfio.ExportedSeconds
import Cfio.RunMailbox
import Cfio.MailboxSamples
import Cfio.MailboxResults
import Cfio.Lifecycle
import Cfio.SyncLifecycle
import Cfio.LibaioLifecycle
import Cfio.IoUringLifecycle
import Cfio.EngineLifecycle
import Cfio.RunTeardown
import Cfio.SizeFormat
import Cfio.SequentialWalk
import Cfio.CompletionRecords
import Cfio.PollLimits
import Cfio.DirectLabel
import Cfio.AxisScale
import Cfio.MetricFormat
import Cfio.AxisLabels
import Cfio.GraphWidget
import Cfio.PoolGeometry
import Cfio.PoolMoves
import Cfio.JsonText
import Cfio.JsonPrinter
import Cfio.BenchmarkResults
import Cfio.SummaryJson
import Cfio.AnsiTerminal
import Cfio.Binary64
import Cfio.ProgressBar
import Cfio.TerminalDisplay
import Cfio.RunTimer
import Cfio.RunEnds
import Cfio.DisplayRun
import Cfio.LinearScale
import Cfio.ChartPlot
import Cfio.ConfigDocuments
import Cfio.ProgramRun
import Cfio.ProgramOutcome
import Cfio.JobTable
import Cfio.GuiSession
import Cfio.GuiOutcome
import Cfio.UserStop
import Cfio.ProgramEnds
