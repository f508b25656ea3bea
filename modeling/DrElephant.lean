import DrElephant.Library.OrderedMap
import DrElephant.Library.Grouping
import DrElephant.Library.StepSystem
import DrElephant.Library.Tiling
import DrElephant.Library.MachineInt
import DrElephant.Library.TreeSet
import DrElephant.Library.Paging
import DrElephant.Java.Text
import DrElephant.Library.Heap
import DrElephant.Java.Exception
import DrElephant.Java.JsonNode
import DrElephant.Analysis.Severity
import DrElephant.Util.Utils
import DrElephant.Models.AppResult
import DrElephant.Analysis.AnalyticJob
import DrElephant.Analysis.HeuristicResult
import DrElephant.Analysis.ElephantContext
import DrElephant.Util.InfoExtractor
import DrElephant.Schedulers.Schedulers
import DrElephant.Schedulers.FirstComplete
import DrElephant.Schedulers.AirflowIds
import DrElephant.Analysis.GetAnalysis
import DrElephant.Analysis.AnalyticJobGeneratorHadoop2
import DrElephant.Analysis.ResourceManager
import DrElephant.Analysis.FetchWindows
import DrElephant.Runner.ElephantRunner
import DrElephant.Runner.Fetch
import DrElephant.Runner.JobConservation
import DrElephant.Runner.Recovery
import DrElephant.Analysis.ResourceManagerProbe
import DrElephant.Runner.FetchLoop
import DrElephant.Controllers.GroupJobs
import DrElephant.Controllers.History
import DrElephant.Controllers.HistoryLimit
import DrElephant.Controllers.HistoryGraph
import DrElephant.Controllers.StageNumbering
import DrElephant.Controllers.Scores
import DrElephant.Controllers.CompareFlows
import DrElephant.Controllers.RestCompare
import DrElephant.Controllers.Search
import DrElephant.Controllers.RestSearch
import DrElephant.Controllers.RestPaging
import DrElephant.Java.HashMap
import DrElephant.Controllers.FlowColumns
import DrElephant.Library.Binary64
import DrElephant.Math.Statistics
import DrElephant.Math.TwoGroups
import DrElephant.MapReduce.MapReduceData
import DrElephant.MapReduce.Heuristics.MapReduceHeuristic
import DrElephant.MapReduce.TaskOrder
import DrElephant.MapReduce.WorseMetrics
import DrElephant.MapReduce.SpeedBounds
import DrElephant.MapReduce.SampledTasks
import DrElephant.MapReduce.SkewScale
import DrElephant.MapReduce.GcRatio
import DrElephant.MapReduce.SpillAverages
import DrElephant.MapReduce.CounterStore
import DrElephant.MapReduce.MapReduceFetcherHadoop2
import DrElephant.MapReduce.Sampling
import DrElephant.Analysis.MissingData
import DrElephant.Configurations.JobTypeConfiguration
import DrElephant.Configurations.Classification
import DrElephant.Configurations.AcceptedDocuments
import DrElephant.Library.Regex
import DrElephant.Java.Double
import DrElephant.Util.MemoryFormatUtils
import DrElephant.Spark.SparkApplicationData
import DrElephant.Spark.Heuristics.SparkHeuristic
import DrElephant.Analysis.ShippedHeuristics
import DrElephant.Analysis.StoredResults
import DrElephant.Library.LiveView
import DrElephant.Spark.StorageStatusTrackingListener
import DrElephant.Util.Thresholds
import DrElephant.Java.WhiteSpace
import DrElephant.Util.JavaOptions
import DrElephant.Spark.SparkFSFetcher
import DrElephant.Configurations.Components
import DrElephant.Analysis.LoadedContext
import DrElephant.Analysis.SupportedTypes
import DrElephant.Spark.SparkDataCollection
import DrElephant.Spark.JobDescriptions
import DrElephant.Java.DecimalLiteral
import DrElephant.Util.MemoryStrings
import DrElephant.Util.MemoryRoundTrip
import DrElephant.Spark.ExecutorLoadSeverity
import DrElephant.Math.ReadableTimespan
import DrElephant.Controllers.CompareOrder
import DrElephant.Library.Simulation
import DrElephant.Runner.LifeCycle
import DrElephant.Runner.Shutdown
import DrElephant.Runner.Provenance
import DrElephant.Java.Replacement
import DrElephant.Controllers.Lookup
import DrElephant.Spark.EventLogs
import DrElephant.Spark.Throttling
import DrElephant.Spark.TableOrder
import DrElephant.MapReduce.Diagnostics
import DrElephant.MapReduce.FailedJobs
import DrElephant.Library.UrlEncoding
import DrElephant.Controllers.Browsing
import DrElephant.Spark.WorseMetrics
