import DrElephant.Library.MachineInt

open machine

namespace drelephant.analysis

structure ApplicationType where
  name : String
  deriving DecidableEq, Repr

/-- Number of times a job needs to be tried before dropping. -/
def RETRY_LIMIT : Int := 3

/-- The metadata of a finished application and how often its analysis was
given another try. -/
structure AnalyticJob where
  retries : Int := 0
  type : ApplicationType
  appId : String
  name : String
  queueName : String
  user : String
  trackingUrl : Option String
  startTime : Int
  finishTime : Int
  deriving DecidableEq, Repr

namespace AnalyticJob

/-- TIMESTAMP range starts from FROM_UNIXTIME(1) = 1970-01-01 00:00:01. -/
def timestamp (time : Int) : Int := if time ≤ 0 then 1000 else time

def setStartTime (job : AnalyticJob) (startTime : Int) : AnalyticJob :=
  { job with startTime := timestamp startTime }

def setFinishTime (job : AnalyticJob) (finishTime : Int) : AnalyticJob :=
  { job with finishTime := timestamp finishTime }

/-- Whether this job should retry itself again; the question counts. -/
def retry (job : AnalyticJob) : Bool × AnalyticJob :=
  (decide (job.retries < RETRY_LIMIT), { job with retries := wrap32 (job.retries + 1) })

@[simp] theorem retry_appId (job : AnalyticJob) : job.retry.2.appId = job.appId := rfl

theorem retry_retries {job : AnalyticJob} (hlo : 0 ≤ job.retries) (hhi : job.retries ≤ RETRY_LIMIT) :
    job.retry.2.retries = job.retries + 1 := by
  simp only [retry, RETRY_LIMIT] at hhi ⊢
  exact wrap32_eq_self (by omega) (by omega)

end AnalyticJob

end drelephant.analysis
