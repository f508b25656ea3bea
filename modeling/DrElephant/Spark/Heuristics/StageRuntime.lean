import DrElephant.Math.Statistics
import DrElephant.Spark.Heuristics.JobRuntime

open drelephant.analysis drelephant.math ieee java.lang

namespace drelephant.spark

/-- Spark heuristic that detects stage runtime anomalies. -/
structure StageRuntimeHeuristic where
  heuristicConfData : HeuristicConfigurationData
  stageFailRateLimits : Severity.Limits
  singleStageFailLimits : Severity.Limits
  stageRuntimeLimits : Severity.Limits

/-- What the loop over the completed stages accumulates. -/
structure StageProblems where
  endSeverity : Severity
  problematicStages : List (Option String) := []

namespace StageRuntimeHeuristic

variable (heuristic : StageRuntimeHeuristic) (platform : Platform)

def getStageRuntimeSeverity (runtime : Int) : Severity :=
  Severity.getSeverityAscending (.ofInt runtime) heuristic.stageRuntimeLimits

def getStageFailureRateSeverity (rate : Binary64) : Severity :=
  Severity.getSeverityAscending rate heuristic.stageFailRateLimits

def getSingleStageTasksFailureRate (rate : Binary64) : Severity :=
  Severity.getSeverityAscending rate heuristic.singleStageFailLimits

/-- A stage is listed as problematic when a severity is worse than MODERATE. -/
def problem (severity : Severity) (id : StageAttemptId) (reason : String) : List (Option String) :=
  if severity.getValue > Severity.MODERATE.getValue then [some (id.toString ++ " (" ++ reason ++ ")")]
  else []

/-- Judges one completed stage by its failed tasks and by its duration. -/
def addStage (jobProgressData : SparkJobProgressData) (problems : StageProblems) (id : StageAttemptId) :
    Except JavaException StageProblems := do
  let info ← dereference (jobProgressData.getStageInfo id.stageId id.attemptId)
  let stageTasksFailureRate := info.getFailureRate
  let tasksFailureRateSeverity := heuristic.getSingleStageTasksFailureRate stageTasksFailureRate
  let runtimeSeverity := heuristic.getStageRuntimeSeverity info.duration
  pure
    { endSeverity := Severity.maxAll [problems.endSeverity, tasksFailureRateSeverity, runtimeSeverity]
      problematicStages := problems.problematicStages ++
        problem tasksFailureRateSeverity id
          ("task failure rate: " ++ platform.threeDecimals stageTasksFailureRate) ++
        problem runtimeSeverity id ("runtime: " ++ Statistics.readableTimespan info.duration) }

/-- What is reported of the stages. -/
def report (jobProgressData : SparkJobProgressData) (problems : StageProblems) : HeuristicResult :=
  HeuristicResult.new heuristic.heuristicConfData problems.endSeverity 0
    |>.addResultDetail "Spark stage completed" (toString jobProgressData.getCompletedStages.length)
    |>.addResultDetail "Spark stage failed" (toString jobProgressData.getFailedStages.length)
    |>.addResultDetail "Spark average stage failure rate"
      (platform.threeDecimals jobProgressData.getStageFailureRate)
    |>.addResultDetail "Spark problematic stages" (getNamesAsString problems.problematicStages)

def apply (data : SparkApplicationData) : Except JavaException (Option HeuristicResult) := do
  let jobProgressData := data.jobProgressData
  let endSeverity :=
    Severity.max .NONE (heuristic.getStageFailureRateSeverity jobProgressData.getStageFailureRate)
  let problems ← jobProgressData.getCompletedStages.foldlM (heuristic.addStage platform jobProgressData)
    { endSeverity }
  pure (some (heuristic.report platform jobProgressData problems))

end StageRuntimeHeuristic

end drelephant.spark
