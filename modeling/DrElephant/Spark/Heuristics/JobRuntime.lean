import DrElephant.Spark.SparkApplicationData

open drelephant.analysis ieee java.lang org.apache.commons.lang

namespace drelephant.spark

/-- The names one below the other. -/
def getNamesAsString (names : List (Option String)) : String := StringUtils.join names "\n"

/-- This heuristic rule observes the runtime characteristics of the spark application run. -/
structure JobRuntimeHeuristic where
  heuristicConfData : HeuristicConfigurationData
  avgJobFailureLimits : Severity.Limits
  jobFailureLimits : Severity.Limits

/-- What the loop over the completed jobs accumulates. -/
structure JobFailures where
  endSeverity : Severity
  highFailureRateJobs : List (Option String) := []

namespace JobRuntimeHeuristic

variable (heuristic : JobRuntimeHeuristic) (platform : Platform)

def getAvgJobFailureRateSeverity (rate : Binary64) : Severity :=
  Severity.getSeverityAscending rate heuristic.avgJobFailureLimits

def getSingleJobFailureRateSeverity (rate : Binary64) : Severity :=
  Severity.getSeverityAscending rate heuristic.jobFailureLimits

/-- Judges one completed job. A job without a description is listed as null. -/
def addJob (jobProgressData : SparkJobProgressData) (failures : JobFailures) (jobId : Int) :
    Except JavaException JobFailures := do
  let job ← dereference (jobProgressData.getJobInfo jobId)
  let jobFailureRate := job.getFailureRate
  let severity := heuristic.getSingleJobFailureRateSeverity jobFailureRate
  let endSeverity := Severity.max failures.endSeverity severity
  if severity.getValue > Severity.MODERATE.getValue then
    let description ← jobProgressData.getJobDescription jobId
    let entry := description.getD "null" ++ " (task failure rate:" ++
      platform.threeDecimals jobFailureRate ++ ")"
    pure { endSeverity, highFailureRateJobs := failures.highFailureRateJobs ++ [some entry] }
  else pure { failures with endSeverity }

/-- What is reported of the jobs. -/
def report (jobProgressData : SparkJobProgressData) (failures : JobFailures)
    (failedJobDescriptions : List (Option String)) : HeuristicResult :=
  HeuristicResult.new heuristic.heuristicConfData failures.endSeverity 0
    |>.addResultDetail "Spark completed jobs number" (toString jobProgressData.getCompletedJobs.length)
    |>.addResultDetail "Spark failed jobs number" (toString jobProgressData.getFailedJobs.length)
    |>.addResultDetail "Spark failed jobs list" (getNamesAsString failedJobDescriptions)
    |>.addResultDetail "Spark average job failure rate"
      (platform.threeDecimals jobProgressData.getJobFailureRate)
    |>.addResultDetail "Spark jobs with high task failure rate"
      (getNamesAsString failures.highFailureRateJobs)

def apply (data : SparkApplicationData) : Except JavaException (Option HeuristicResult) := do
  let jobProgressData := data.jobProgressData
  let endSeverity :=
    Severity.max .NONE (heuristic.getAvgJobFailureRateSeverity jobProgressData.getJobFailureRate)
  let failures ← jobProgressData.getCompletedJobs.foldlM (heuristic.addJob platform jobProgressData)
    { endSeverity }
  let failedJobDescriptions ← jobProgressData.getFailedJobDescriptions
  pure (some (heuristic.report platform jobProgressData failures failedJobDescriptions))

end JobRuntimeHeuristic

end drelephant.spark
