import DrElephant.Analysis.HeuristicResult
import DrElephant.Java.Text
import DrElephant.MapReduce.MapReduceData
import DrElephant.Math.Statistics
import DrElephant.Util.Utils

open drelephant.analysis drelephant.math drelephant.util ieee java.lang machine

namespace drelephant.mapreduce

/-- `FileUtils.ONE_MB` -/
def ONE_MB : Int := 1024 * 1024

/-- Looks for tasks that use little of the memory of their containers. -/
structure GenericMemoryHeuristic where
  containerMemConf : String
  tasks : TaskArray
  heuristicConfData : HeuristicConfigurationData
  memRatioLimits : Severity.Limits
  memoryLimits : Severity.Limits

def MAPPER_MEMORY_CONF : String := "mapreduce.map.memory.mb"
def REDUCER_MEMORY_CONF : String := "mapreduce.reduce.memory.mb"

def MapperMemoryHeuristic (heuristicConfData : HeuristicConfigurationData)
    (memRatioLimits memoryLimits : Severity.Limits) : GenericMemoryHeuristic :=
  ⟨MAPPER_MEMORY_CONF, .mapper, heuristicConfData, memRatioLimits, memoryLimits⟩

def ReducerMemoryHeuristic (heuristicConfData : HeuristicConfigurationData)
    (memRatioLimits memoryLimits : Severity.Limits) : GenericMemoryHeuristic :=
  ⟨REDUCER_MEMORY_CONF, .reducer, heuristicConfData, memRatioLimits, memoryLimits⟩

/-- What is read of a sampled task. -/
structure MemoryMetrics where
  runtimeMs : Int
  taskPMem : Int
  taskVMem : Int

namespace GenericMemoryHeuristic

variable (heuristic : GenericMemoryHeuristic) (formats : NumberFormats)
  (digit : Char → Option Nat)

/-- The container size in MB. Some job has a string var like "${VAR}" for this
config. -/
def containerMemory (conf : Properties) (containerSizeStr : String) : Except JavaException Int :=
  match parseLong digit containerSizeStr with
  | some containerMem => .ok containerMem
  | none =>
    if containerSizeStr.startsWith "$" then do
      let realContainerConf ←
        substring containerSizeStr (indexOf containerSizeStr '{' + 1) (indexOf containerSizeStr '}')
      match (conf realContainerConf).bind (parseLong digit) with
      | some containerMem => pure containerMem
      | none => .error .numberFormat
    else .error .numberFormat

def getContainerMemorySeverity (taskMemMax : Int) : Severity :=
  Severity.getSeverityAscending (.ofInt taskMemMax) heuristic.memoryLimits

def getMemoryRatioSeverity (ratio : Binary64) : Severity :=
  Severity.getSeverityDescending ratio heuristic.memRatioLimits

def getTaskMemoryUtilSeverity (taskMemAvg taskMemMax : Int) : Severity :=
  let ratio := (Binary64.ofInt taskMemAvg).div (.ofInt taskMemMax)
  let sevRatio := heuristic.getMemoryRatioSeverity ratio
  -- Severity is reduced if the requested container memory is close to default
  let sevMax := heuristic.getContainerMemorySeverity taskMemMax
  Severity.min sevRatio sevMax

def read (task : MapReduceTaskData) : Except JavaException MemoryMetrics := do
  let taskPMem ← task.counter .PHYSICAL_MEMORY_BYTES
  let taskVMem ← task.counter .VIRTUAL_MEMORY_BYTES
  pure { runtimeMs := task.totalTimeMs, taskPMem, taskVMem }

/-- What is reported of the sampled tasks. -/
def report (containerMem : Int) (numTasks : Nat) (metrics : List MemoryMetrics) : HeuristicResult :=
  let taskPMems := metrics.map MemoryMetrics.taskPMem
  let taskPMin := Statistics.minimum taskPMems
  let taskPMax := Statistics.maximum taskPMems
  let taskPMemAvg := Statistics.average taskPMems
  let taskVMemAvg := Statistics.average (metrics.map MemoryMetrics.taskVMem)
  let averageTimeMs := Statistics.average (metrics.map MemoryMetrics.runtimeMs)
  let severity :=
    if numTasks = 0 then .NONE else heuristic.getTaskMemoryUtilSeverity taskPMemAvg containerMem
  HeuristicResult.new heuristic.heuristicConfData severity (Utils.getHeuristicScore severity numTasks)
    |>.addResultDetail "Number of tasks" (toString numTasks)
    |>.addResultDetail "Avg task runtime" (Statistics.readableTimespan averageTimeMs)
    |>.addResultDetail "Avg Physical Memory (MB)" (toString (taskPMemAvg.tdiv ONE_MB))
    |>.addResultDetail "Max Physical Memory (MB)" (toString (taskPMax.tdiv ONE_MB))
    |>.addResultDetail "Min Physical Memory (MB)" (toString (taskPMin.tdiv ONE_MB))
    |>.addResultDetail "Avg Virtual Memory (MB)" (toString (taskVMemAvg.tdiv ONE_MB))
    |>.addResultDetail "Requested Container Memory" (formats.byteCountToDisplaySize containerMem)

def apply (data : MapReduceApplicationData) : Except JavaException (Option HeuristicResult) :=
  if !data.succeeded then .ok none
  else do
    let conf ← dereference data.jobConf
    match conf heuristic.containerMemConf with
    | none => pure none
    | some containerSizeStr =>
      let containerMem ← containerMemory digit conf containerSizeStr
      let containerMem := wrap64 (containerMem * ONE_MB)
      let (numTasks, metrics) ← data.sampledMetrics heuristic.tasks read
      pure (some (heuristic.report formats containerMem numTasks metrics))

/-- The sums behind the averages are exact. -/
structure ExactSums (metrics : List MemoryMetrics) : Prop where
  runtimes : Statistics.Exact (metrics.map MemoryMetrics.runtimeMs)
  taskPMems : Statistics.Exact (metrics.map MemoryMetrics.taskPMem)
  taskVMems : Statistics.Exact (metrics.map MemoryMetrics.taskVMem)

theorem report_perm {metrics metrics' : List MemoryMetrics} (h : metrics.Perm metrics')
    (hexact : ExactSums metrics) (containerMem : Int) (numTasks : Nat) :
    heuristic.report formats containerMem numTasks metrics =
      heuristic.report formats containerMem numTasks metrics' := by
  simp only [report, Statistics.average_perm (h.map _) hexact.runtimes,
    Statistics.average_perm (h.map _) hexact.taskPMems,
    Statistics.average_perm (h.map _) hexact.taskVMems,
    Statistics.minimum_perm (h.map MemoryMetrics.taskPMem),
    Statistics.maximum_perm (h.map MemoryMetrics.taskPMem)]

end GenericMemoryHeuristic

end drelephant.mapreduce
