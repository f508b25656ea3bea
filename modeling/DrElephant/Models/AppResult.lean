import DrElephant.Analysis.Severity
import DrElephant.Library.MachineInt

open drelephant.analysis machine

namespace models

structure AppHeuristicResultDetails where
  name : Option String
  value : Option String
  details : Option String
  deriving DecidableEq, Repr

def AppHeuristicResultDetails.NAME_LIMIT : Nat := 128
def AppHeuristicResultDetails.VALUE_LIMIT : Nat := 255
def AppHeuristicResultDetails.DETAILS_LIMIT : Nat := 65535

structure AppHeuristicResult where
  heuristicClass : Option String
  heuristicName : Option String
  severity : Severity
  score : Int
  yarnAppHeuristicResultDetails : List AppHeuristicResultDetails
  deriving DecidableEq, Repr

def AppHeuristicResult.HEURISTIC_NAME_LIMIT : Nat := 128
def AppHeuristicResult.HEURISTIC_CLASS_LIMIT : Nat := 255

/-- A row of `yarn_app_result` with its heuristic rows. -/
structure AppResult where
  id : Option String
  name : Option String
  username : Option String
  queueName : Option String
  startTime : Int
  finishTime : Int
  trackingUrl : Option String
  jobType : Option String
  severity : Severity
  score : Int
  workflowDepth : Int
  scheduler : Option String
  jobName : Option String
  jobExecId : Option String
  flowExecId : Option String
  jobDefId : Option String
  flowDefId : Option String
  jobExecUrl : Option String
  flowExecUrl : Option String
  jobDefUrl : Option String
  flowDefUrl : Option String
  yarnAppHeuristicResults : List AppHeuristicResult
  deriving DecidableEq, Repr

namespace AppResult

def ID_LIMIT : Nat := 50
def USERNAME_LIMIT : Nat := 50
def QUEUE_NAME_LIMIT : Nat := 50
def APP_NAME_LIMIT : Nat := 100
def JOB_NAME_LIMIT : Nat := 255
def TRACKING_URL_LIMIT : Nat := 255
def JOBTYPE_LIMIT : Nat := 20
def SCHEDULER_LIMIT : Nat := 20
def URL_LEN_LIMIT : Nat := 800
def FLOW_EXEC_ID_LIMIT : Nat := 255

/-- A row told apart by its ids and its finish time, for examples. -/
def row (id jobDefId flowExecId : String) (finishTime : Int) : AppResult where
  id := some id
  name := some ""
  username := some ""
  queueName := some ""
  startTime := 1000
  finishTime := finishTime
  trackingUrl := none
  jobType := none
  severity := .NONE
  score := 0
  workflowDepth := 0
  scheduler := some "azkaban"
  jobName := some jobDefId
  jobExecId := some id
  flowExecId := some flowExecId
  jobDefId := some jobDefId
  flowDefId := some "flow"
  jobExecUrl := some ""
  flowExecUrl := some ""
  jobDefUrl := some ""
  flowDefUrl := some ""
  yarnAppHeuristicResults := []

/-- `AppResult.find.byId` over the rows of the table. -/
def byId (table : List AppResult) (appId : String) : Option AppResult :=
  table.find? fun row => row.id == some appId

theorem byId_eq_none_iff {table : List AppResult} {appId : String} :
    byId table appId = none ↔ some appId ∉ table.map AppResult.id := by
  simp [byId]

/-- The heuristic rows account for the severity and the score of a result: the
severity is their maximum, the score their sum in a 32-bit word. -/
structure Accounted (result : AppResult) : Prop where
  severity_bound : ∀ row ∈ result.yarnAppHeuristicResults,
    row.severity.getValue ≤ result.severity.getValue
  severity_attained : result.yarnAppHeuristicResults ≠ [] →
    ∃ row ∈ result.yarnAppHeuristicResults, row.severity = result.severity
  severity_none : result.yarnAppHeuristicResults = [] → result.severity = .NONE
  score_eq : result.score =
    wrap32 (result.yarnAppHeuristicResults.map AppHeuristicResult.score).sum

theorem Accounted.congr {result other : AppResult} (h : result.Accounted)
    (hrows : result.yarnAppHeuristicResults = other.yarnAppHeuristicResults)
    (hseverity : result.severity = other.severity) (hscore : result.score = other.score) :
    other.Accounted := by
  obtain ⟨hbound, hattained, hnone, hsum⟩ := h
  rw [hrows, hseverity] at hbound hattained hnone
  rw [hrows, hscore] at hsum
  exact ⟨hbound, hattained, hnone, hsum⟩

end AppResult

end models
