import Mathlib.Data.List.Pairwise
import DrElephant.Models.AppResult

namespace models

/-- The text of a column VARCHAR(width). -/
def Varchar (width : Nat) (field : Option String) : Prop := ∀ text ∈ field, text.length ≤ width

/-- The text of a column VARCHAR(width) NOT NULL. -/
def VarcharNotNull (width : Nat) (field : Option String) : Prop :=
  field ≠ none ∧ Varchar width field

/-- The range of MEDIUMINT UNSIGNED. -/
def MediumintUnsigned (value : Int) : Prop := 0 ≤ value ∧ value ≤ 16777215

instance (width : Nat) (field : Option String) : Decidable (Varchar width field) :=
  match field with
  | none => .isTrue (by simp [Varchar])
  | some text => decidable_of_iff (text.length ≤ width) (by simp [Varchar])

instance (width : Nat) (field : Option String) : Decidable (VarcharNotNull width field) :=
  inferInstanceAs (Decidable (_ ∧ _))

instance (value : Int) : Decidable (MediumintUnsigned value) := inferInstanceAs (Decidable (_ ∧ _))

/-- A row of `yarn_app_heuristic_result_details`. -/
structure AppHeuristicResultDetails.Storable (detail : AppHeuristicResultDetails) : Prop where
  name : VarcharNotNull 128 detail.name
  value : VarcharNotNull 255 detail.value

/-- A row of `yarn_app_heuristic_result` with its details, whose primary key
has their name. -/
structure AppHeuristicResult.Storable (row : AppHeuristicResult) : Prop where
  score : MediumintUnsigned row.score
  details : ∀ detail ∈ row.yarnAppHeuristicResultDetails, detail.Storable
  names : (row.yarnAppHeuristicResultDetails.map AppHeuristicResultDetails.name).Nodup

/-- The columns of `yarn_app_result` that say which job and flow of a scheduler
an application belongs to. -/
structure AppResult.SchedulerColumns (result : AppResult) : Prop where
  scheduler : Varchar 20 result.scheduler
  jobName : VarcharNotNull 255 result.jobName
  jobExecId : VarcharNotNull 800 result.jobExecId
  flowExecId : VarcharNotNull 255 result.flowExecId
  jobDefId : VarcharNotNull 800 result.jobDefId
  flowDefId : VarcharNotNull 800 result.flowDefId
  jobExecUrl : VarcharNotNull 800 result.jobExecUrl
  flowExecUrl : VarcharNotNull 800 result.flowExecUrl
  jobDefUrl : VarcharNotNull 800 result.jobDefUrl
  flowDefUrl : VarcharNotNull 800 result.flowDefUrl

/-- A result that can be inserted with its heuristic rows. -/
structure AppResult.Storable (result : AppResult) : Prop where
  id : VarcharNotNull 50 result.id
  name : VarcharNotNull 100 result.name
  username : VarcharNotNull 50 result.username
  trackingUrl : VarcharNotNull 255 result.trackingUrl
  jobType : VarcharNotNull 20 result.jobType
  schedulerColumns : result.SchedulerColumns
  score : MediumintUnsigned result.score
  heuristicResults : ∀ row ∈ result.yarnAppHeuristicResults, row.Storable

end models
