import DrElephant.Util.InfoExtractor

open drelephant.analysis drelephant.util java.lang

namespace drelephant.schedulers

structure SchedulerConfigurationData where
  schedulerName : String
  className : String
  paramMap : String → Option String := fun _ => none

section AzkabanScheduler

def AZKABAN_WORKFLOW_URL : String := "azkaban.link.workflow.url"
def AZKABAN_JOB_URL : String := "azkaban.link.job.url"
def AZKABAN_EXECUTION_URL : String := "azkaban.link.execution.url"
def AZKABAN_ATTEMPT_URL : String := "azkaban.link.attempt.url"
def AZKABAN_JOB_NAME : String := "azkaban.job.id"

/-- For Azkaban, the urls and ids are the same. -/
def AzkabanScheduler (conf : SchedulerConfigurationData) (properties : Properties) : Scheduler :=
  let jobDefId := properties AZKABAN_JOB_URL
  let jobExecId := properties AZKABAN_ATTEMPT_URL
  let flowDefId := properties AZKABAN_WORKFLOW_URL
  let flowExecId := properties AZKABAN_EXECUTION_URL
  { getSchedulerName := some conf.schedulerName
    isEmpty := jobDefId.isNone || jobExecId.isNone || flowDefId.isNone || flowExecId.isNone
    getJobDefId := jobDefId
    getJobExecId := jobExecId
    getFlowDefId := flowDefId
    getFlowExecId := flowExecId
    getJobDefUrl := jobDefId
    getJobExecUrl := jobExecId
    getFlowDefUrl := flowDefId
    getFlowExecUrl := flowExecId
    getJobName := properties AZKABAN_JOB_NAME
    getWorkflowDepth := 0 }

end AzkabanScheduler

section AirflowScheduler

def AIRFLOW_TASK_ID : String := "airflow.ctx.task.task_id"
def AIRFLOW_TASK_INSTANCE_EXECUTION_DATE : String := "airflow.ctx.task_instance.execution_date"
def AIRFLOW_DAG_ID : String := "airflow.ctx.dag.dag_id"
def AIRFLOW_DAG_RUN_EXECUTION_DATE : String := "airflow.ctx.dag_run.execution_date"
def AIRFLOW_BASE_URL_PARAM_NAME : String := "airflowbaseurl"
def AIRFLOW_BASE_URL_DEFAULT : String := "http://localhost:8000"

def AirflowScheduler (conf : SchedulerConfigurationData) (properties : Properties) : Scheduler :=
  let baseUrl := some ((conf.paramMap AIRFLOW_BASE_URL_PARAM_NAME).getD AIRFLOW_BASE_URL_DEFAULT)
  let taskId := properties AIRFLOW_TASK_ID
  let taskInstanceExecutionDate := properties AIRFLOW_TASK_INSTANCE_EXECUTION_DATE
  let dagId := properties AIRFLOW_DAG_ID
  let dagRunExecutionDate := properties AIRFLOW_DAG_RUN_EXECUTION_DATE
  { getSchedulerName := some conf.schedulerName
    isEmpty := taskId.isNone || taskInstanceExecutionDate.isNone || dagId.isNone ||
      dagRunExecutionDate.isNone
    getJobDefId := Utils.formatStringOrNull "%s/%s" [dagId, taskId]
    getJobExecId := Utils.formatStringOrNull "%s/%s/%s/%s"
      [dagId, dagRunExecutionDate, taskId, taskInstanceExecutionDate]
    getFlowDefId := Utils.formatStringOrNull "%s" [dagId]
    getFlowExecId := Utils.formatStringOrNull "%s/%s" [dagId, dagRunExecutionDate]
    getJobDefUrl := Utils.formatStringOrNull "%s/admin/airflow/code?dag_id=%s&task_id=%s"
      [baseUrl, dagId, taskId]
    getJobExecUrl := Utils.formatStringOrNull
      "%s/admin/airflow/log?dag_id=%s&task_id=%s&execution_date=%s"
      [baseUrl, dagId, taskId, taskInstanceExecutionDate]
    getFlowDefUrl := Utils.formatStringOrNull "%s/admin/airflow/graph?dag_id=%s" [baseUrl, dagId]
    getFlowExecUrl := Utils.formatStringOrNull "%s/admin/airflow/graph?dag_id=%s&execution_date=%s"
      [baseUrl, dagId, dagRunExecutionDate]
    getJobName := taskId
    getWorkflowDepth := 0 }

end AirflowScheduler

/-- The scheduler classes that are delivered. -/
inductive SchedulerKind
  | azkaban
  | airflow
  deriving DecidableEq, Repr

/-- The instance that is made for the properties of an application. -/
def SchedulerKind.newInstance : SchedulerKind → SchedulerConfigurationData → Properties → Scheduler
  | azkaban => AzkabanScheduler
  | airflow => AirflowScheduler

/-- A configured scheduler. Its constructor does not throw. -/
def SchedulerKind.schedulerClass (kind : SchedulerKind) (conf : SchedulerConfigurationData) :
    SchedulerClass where
  className := conf.className
  newInstance _ properties := .ok (kind.newInstance conf properties)

/-- The properties without which there is no instance. -/
def SchedulerKind.idProperties : SchedulerKind → List String
  | azkaban => [AZKABAN_JOB_URL, AZKABAN_ATTEMPT_URL, AZKABAN_WORKFLOW_URL, AZKABAN_EXECUTION_URL]
  | airflow =>
    [AIRFLOW_TASK_ID, AIRFLOW_TASK_INSTANCE_EXECUTION_DATE, AIRFLOW_DAG_ID, AIRFLOW_DAG_RUN_EXECUTION_DATE]

theorem SchedulerKind.isEmpty_newInstance (kind : SchedulerKind) (conf : SchedulerConfigurationData)
    (properties : Properties) :
    (kind.newInstance conf properties).isEmpty = kind.idProperties.any fun id => (properties id).isNone := by
  cases kind <;> simp [newInstance, AzkabanScheduler, AirflowScheduler, idProperties, Bool.or_assoc]

end drelephant.schedulers
