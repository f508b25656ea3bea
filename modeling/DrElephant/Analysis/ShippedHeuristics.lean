import DrElephant.MapReduce.Heuristics.MapReduceHeuristic
import DrElephant.Models.Schema
import DrElephant.Spark.Heuristics.SparkHeuristic

open drelephant.mapreduce drelephant.math drelephant.spark drelephant.util java.lang machine models

namespace drelephant.analysis

namespace HeuristicResult

/-- The details of a result have these names, and none lacks its value. -/
structure Reports (result : HeuristicResult) (names : List String) : Prop where
  names : result.heuristicResultDetails.map HeuristicResultDetails.name = names.map some
  values : ∀ detail ∈ result.heuristicResultDetails, detail.value ≠ none

theorem reports_new {conf : HeuristicConfigurationData} {severity : Severity} {score : Int} :
    (new conf severity score).Reports [] :=
  ⟨rfl, by simp⟩

theorem Reports.add {result : HeuristicResult} {names : List String}
    (h : result.Reports names) {name value : String} {details : Option String} :
    (result.addResultDetail name value details).Reports (names ++ [name]) := by
  obtain ⟨hnames, hvalues⟩ := h
  refine ⟨by simp [hnames], ?_⟩
  intro detail hdetail
  rcases List.mem_append.mp hdetail with hold | hnew
  · exact hvalues detail hold
  · obtain rfl := List.mem_singleton.mp hnew
    simp

/-- A result whose details go into their table: no two have one name, and no
name is cut. Its score is that of a number of tasks. -/
structure Reportable (result : HeuristicResult) (numTasks : Nat) : Prop where
  details : ∃ names, result.Reports names ∧ names.Nodup ∧
    ∀ name ∈ names, utf16Length name ≤ AppHeuristicResultDetails.NAME_LIMIT
  score : result.score = Utils.getHeuristicScore result.severity numTasks

theorem Reportable.of_score {result : HeuristicResult} (hdetails : ∃ names, result.Reports names ∧
    names.Nodup ∧ ∀ name ∈ names, utf16Length name ≤ AppHeuristicResultDetails.NAME_LIMIT)
    (hscore : result.score = 0) : result.Reportable 0 :=
  ⟨hdetails, by rw [hscore, Utils.getHeuristicScore_zero]⟩

end HeuristicResult

end drelephant.analysis

open drelephant.analysis

namespace drelephant.mapreduce

/-- The length of an array of tasks, 0 for null. -/
def MapReduceApplicationData.numTasks (data : MapReduceApplicationData) : TaskArray → Nat
  | .mapper => data.mapperData.elim 0 List.length
  | .reducer => data.reducerData.elim 0 List.length

theorem numTasks_of_sampledMetrics {α : Type} {data : MapReduceApplicationData} {array : TaskArray}
    {read : MapReduceTaskData → Except JavaException α} {numTasks : Nat} {metrics : List α}
    (h : data.sampledMetrics array read = .ok (numTasks, metrics)) : numTasks = data.numTasks array := by
  simp only [MapReduceApplicationData.sampledMetrics, bind_eq_ok_iff, pure_eq_ok_iff] at h
  obtain ⟨tasks, htasks, read, -, hpair⟩ := h
  obtain ⟨rfl, -⟩ := Prod.mk.inj hpair
  cases array with
  | mapper => simp [MapReduceApplicationData.numTasks, dereference_eq_ok_iff.mp htasks]
  | reducer => simp [MapReduceApplicationData.numTasks, dereference_eq_ok_iff.mp htasks]

namespace MapReduceHeuristic

/-- The array whose tasks a heuristic judges. -/
def tasks : MapReduceHeuristic → Option TaskArray
  | mapperDataSkew .. => some .mapper
  | mapperGC .. => some .mapper
  | mapperTime .. => some .mapper
  | mapperSpeed .. => some .mapper
  | mapperSpill .. => some .mapper
  | mapperMemory .. => some .mapper
  | reducerDataSkew .. => some .reducer
  | reducerGC .. => some .reducer
  | reducerTime .. => some .reducer
  | reducerMemory .. => some .reducer
  | shuffleSort .. => some .reducer
  | exception .. => none

/-- The number of tasks that a heuristic judges. -/
def numTasks (heuristic : MapReduceHeuristic) (data : MapReduceApplicationData) : Nat :=
  heuristic.tasks.elim 0 data.numTasks

section reportable

open HeuristicResult (reports_new)

variable {formats : NumberFormats} {digit : Char → Option Nat} {data : MapReduceApplicationData}
  {result : HeuristicResult}

private theorem dataSkew_reportable (heuristic : GenericDataSkewHeuristic) (numTasks : Nat)
    (inputBytes : List Int) : (heuristic.report formats numTasks inputBytes).Reportable numTasks :=
  ⟨⟨_, reports_new.add.add.add, by decide⟩, rfl⟩

private theorem gc_reportable (heuristic : GenericGCHeuristic) (numTasks : Nat)
    (metrics : List GCMetrics) : (heuristic.report formats numTasks metrics).Reportable numTasks :=
  ⟨⟨_, reports_new.add.add.add.add.add, by decide⟩, rfl⟩

private theorem memory_reportable (heuristic : GenericMemoryHeuristic) (containerMem : Int)
    (numTasks : Nat) (metrics : List MemoryMetrics) :
    (heuristic.report formats containerMem numTasks metrics).Reportable numTasks :=
  ⟨⟨_, reports_new.add.add.add.add.add.add.add, by decide⟩, rfl⟩

private theorem mapperSpeed_reportable (heuristic : MapperSpeedHeuristic) (numTasks : Nat)
    (medians : SpeedMedians) : (heuristic.report formats numTasks medians).Reportable numTasks :=
  ⟨⟨_, reports_new.add.add.add.add, by decide⟩, rfl⟩

private theorem mapperSpill_reportable (heuristic : MapperSpillHeuristic) (numTasks : Nat)
    (metrics : List SpillMetrics) : (heuristic.report formats numTasks metrics).Reportable numTasks :=
  ⟨⟨_, reports_new.add.add.add.add, by decide⟩, rfl⟩

private theorem mapperTime_reportable (heuristic : TaskTimeHeuristic) (numTasks : Nat)
    (metrics : List MapperTimeMetrics) :
    (MapperTimeHeuristic.report heuristic formats numTasks metrics).Reportable numTasks :=
  ⟨⟨_, reports_new.add.add.add.add.add, by decide⟩, rfl⟩

private theorem reducerTime_reportable (heuristic : TaskTimeHeuristic) (numTasks : Nat)
    (runTimesMs : List Int) :
    (ReducerTimeHeuristic.report heuristic numTasks runTimesMs).Reportable numTasks :=
  ⟨⟨_, reports_new.add.add.add.add, by decide⟩, rfl⟩

private theorem shuffleSort_reportable (heuristic : ShuffleSortHeuristic) (numTasks : Nat)
    (metrics : List ShuffleSortMetrics) :
    (heuristic.report formats numTasks metrics).Reportable numTasks :=
  ⟨⟨_, reports_new.add.add.add.add, by decide⟩, rfl⟩

private theorem exception_reportable {conf : HeuristicConfigurationData}
    (h : ExceptionHeuristic.apply conf data = .ok (some result)) : result.Reportable 0 := by
  unfold ExceptionHeuristic.apply at h
  split at h
  · cases h
  · split at h <;> obtain rfl := Option.some.inj (Except.ok.inj h) <;>
      exact ⟨⟨_, reports_new.add, by decide⟩, rfl⟩

/-- A report of the sampled tasks of a job that has succeeded. -/
private theorem reportable_of_sampledMetrics {α : Type} {array : TaskArray}
    {read : MapReduceTaskData → Except JavaException α} {report : Nat → List α → HeuristicResult}
    (hreport : ∀ numTasks metrics, (report numTasks metrics).Reportable numTasks)
    (h : (if !data.succeeded then .ok none else do
      let (numTasks, metrics) ← data.sampledMetrics array read
      pure (some (report numTasks metrics))) = Except.ok (some result)) :
    result.Reportable (data.numTasks array) := by
  split at h
  · cases h
  · simp only [bind_eq_ok_iff, pure_eq_ok_iff, Option.some.injEq] at h
    obtain ⟨⟨numTasks, metrics⟩, hmetrics, rfl⟩ := h
    obtain rfl := numTasks_of_sampledMetrics hmetrics
    exact hreport _ _

private theorem memory_apply_reportable {heuristic : GenericMemoryHeuristic}
    (h : heuristic.apply formats digit data = .ok (some result)) :
    result.Reportable (data.numTasks heuristic.tasks) := by
  unfold GenericMemoryHeuristic.apply at h
  split at h
  · cases h
  · simp only [bind_eq_ok_iff] at h
    obtain ⟨conf, -, h⟩ := h
    split at h
    · cases h
    · simp only [bind_eq_ok_iff, pure_eq_ok_iff, Option.some.injEq] at h
      obtain ⟨containerMem, -, ⟨numTasks, metrics⟩, hmetrics, rfl⟩ := h
      obtain rfl := numTasks_of_sampledMetrics hmetrics
      exact memory_reportable _ _ _ _

private theorem mapperSpeed_apply_reportable {heuristic : MapperSpeedHeuristic}
    (h : heuristic.apply formats data = .ok (some result)) :
    result.Reportable (data.numTasks .mapper) := by
  unfold MapperSpeedHeuristic.apply at h
  split at h
  · cases h
  · simp only [bind_eq_ok_iff, pure_eq_ok_iff, Option.some.injEq] at h
    obtain ⟨⟨numTasks, metrics⟩, hmetrics, medians, -, rfl⟩ := h
    obtain rfl := numTasks_of_sampledMetrics hmetrics
    exact mapperSpeed_reportable _ _ _

theorem apply_reportable {heuristic : MapReduceHeuristic}
    (h : heuristic.apply formats digit data = .ok (some result)) :
    result.Reportable (heuristic.numTasks data) := by
  cases heuristic with
  | mapperDataSkew => exact reportable_of_sampledMetrics (dataSkew_reportable _) h
  | mapperGC => exact reportable_of_sampledMetrics (gc_reportable _) h
  | mapperTime heuristic => exact reportable_of_sampledMetrics (mapperTime_reportable heuristic) h
  | mapperSpeed => exact mapperSpeed_apply_reportable h
  | mapperSpill heuristic => exact reportable_of_sampledMetrics (mapperSpill_reportable heuristic) h
  | mapperMemory => exact memory_apply_reportable h
  | reducerDataSkew => exact reportable_of_sampledMetrics (dataSkew_reportable _) h
  | reducerGC => exact reportable_of_sampledMetrics (gc_reportable _) h
  | reducerTime heuristic => exact reportable_of_sampledMetrics (reducerTime_reportable heuristic) h
  | reducerMemory => exact memory_apply_reportable h
  | shuffleSort heuristic => exact reportable_of_sampledMetrics (shuffleSort_reportable heuristic) h
  | exception => exact exception_reportable h

end reportable

end MapReduceHeuristic

end drelephant.mapreduce

namespace drelephant.spark.SparkHeuristic

open HeuristicResult (reports_new)

variable {platform : Platform} {data : SparkApplicationData} {result : HeuristicResult}

private theorem bestPropertiesConvention_reportable {heuristic : BestPropertiesConventionHeuristic}
    (h : heuristic.apply platform data = .ok (some result)) : result.Reportable 0 := by
  simp only [BestPropertiesConventionHeuristic.apply, bind_eq_ok_iff, pure_eq_ok_iff,
    Option.some.injEq] at h
  obtain ⟨_, -, _, -, rfl⟩ := h
  exact .of_score ⟨_, reports_new.add.add.add.add, by decide⟩ rfl

private theorem memoryLimit_reportable {heuristic : MemoryLimitHeuristic}
    (h : heuristic.apply platform data = .ok (some result)) : result.Reportable 0 := by
  simp only [MemoryLimitHeuristic.apply, bind_eq_ok_iff, pure_eq_ok_iff, Option.some.injEq] at h
  obtain ⟨_, -, _, -, _, -, _, -, _, -, _, -, _, -, _, -, _, -, _, -, _, -, rfl⟩ := h
  exact .of_score ⟨_, reports_new.add.add.add.add.add, by decide⟩ rfl

private theorem stageRuntime_reportable {heuristic : StageRuntimeHeuristic}
    (h : heuristic.apply platform data = .ok (some result)) : result.Reportable 0 := by
  simp only [StageRuntimeHeuristic.apply, bind_eq_ok_iff, pure_eq_ok_iff, Option.some.injEq] at h
  obtain ⟨_, -, rfl⟩ := h
  exact .of_score ⟨_, reports_new.add.add.add.add, by decide⟩ rfl

private theorem jobRuntime_reportable {heuristic : JobRuntimeHeuristic}
    (h : heuristic.apply platform data = .ok (some result)) : result.Reportable 0 := by
  simp only [JobRuntimeHeuristic.apply, bind_eq_ok_iff, pure_eq_ok_iff, Option.some.injEq] at h
  obtain ⟨_, -, _, -, rfl⟩ := h
  exact .of_score ⟨_, reports_new.add.add.add.add.add, by decide⟩ rfl

private theorem executorLoad_reportable {heuristic : ExecutorLoadHeuristic}
    (h : heuristic.apply platform data = .ok (some result)) : result.Reportable 0 := by
  simp only [ExecutorLoadHeuristic.apply, bind_eq_ok_iff, pure_eq_ok_iff, Option.some.injEq] at h
  obtain ⟨_, -, _, -, _, -, _, -, _, -, _, -, rfl⟩ := h
  exact .of_score ⟨_, reports_new.add.add.add.add, by decide⟩ rfl

private theorem eventLogLimit_reportable {conf : HeuristicConfigurationData}
    (h : EventLogLimitHeuristic.apply conf data = .ok (some result)) : result.Reportable 0 := by
  unfold EventLogLimitHeuristic.apply at h
  split at h <;> obtain rfl := Option.some.inj (Except.ok.inj h)
  · exact .of_score ⟨_, reports_new.add, by decide⟩ rfl
  · exact .of_score ⟨_, reports_new, by decide⟩ rfl

/-- The heuristics for spark do not score. -/
theorem apply_reportable {heuristic : SparkHeuristic}
    (h : heuristic.apply platform data = .ok (some result)) : result.Reportable 0 := by
  cases heuristic with
  | bestPropertiesConvention => exact bestPropertiesConvention_reportable h
  | memoryLimit => exact memoryLimit_reportable h
  | stageRuntime => exact stageRuntime_reportable h
  | jobRuntime => exact jobRuntime_reportable h
  | executorLoad => exact executorLoad_reportable h
  | eventLogLimit => exact eventLogLimit_reportable h

end drelephant.spark.SparkHeuristic

namespace drelephant.analysis

/-- The data that the fetchers return. -/
inductive ApplicationData
  | mapReduce (data : CompleteApplicationData)
  | spark (data : SparkApplicationData)

instance : HadoopApplicationData ApplicationData where
  getAppId
    | .mapReduce data => HadoopApplicationData.getAppId data
    | .spark data => HadoopApplicationData.getAppId data
  getConf
    | .mapReduce data => HadoopApplicationData.getConf data
    | .spark data => HadoopApplicationData.getConf data
  getApplicationType
    | .mapReduce data => HadoopApplicationData.getApplicationType data
    | .spark data => HadoopApplicationData.getApplicationType data
  isEmpty
    | .mapReduce data => HadoopApplicationData.isEmpty data
    | .spark data => HadoopApplicationData.isEmpty data

/-- The heuristics that HeuristicConf.xml configures. -/
inductive ShippedHeuristic
  | mapReduce (heuristic : MapReduceHeuristic)
  | spark (heuristic : SparkHeuristic)

namespace ShippedHeuristic

variable (platform : Platform)

def apply : ShippedHeuristic → Heuristic ApplicationData
  | mapReduce heuristic, .mapReduce data => heuristic.apply platform.formats platform.digit data.val
  | spark heuristic, .spark data => heuristic.apply platform data
  | _, _ => .error (.other "ClassCastException")

/-- The number of tasks that a heuristic scores. -/
def numTasks : ShippedHeuristic → ApplicationData → Nat
  | mapReduce heuristic, .mapReduce data => heuristic.numTasks data.val
  | _, _ => 0

/-- What a heuristic adds to the score of an application: the number of its
tasks for each level of the severity that it finds. -/
def points (heuristic : ShippedHeuristic) (data : ApplicationData) : Int :=
  match heuristic.apply platform data with
  | .ok (some result) => Utils.getHeuristicScore result.severity (heuristic.numTasks data)
  | _ => 0

variable {platform} {heuristic : ShippedHeuristic} {data : ApplicationData}

theorem apply_reportable {result : HeuristicResult}
    (h : heuristic.apply platform data = .ok (some result)) :
    result.Reportable (heuristic.numTasks data) := by
  cases heuristic with
  | mapReduce heuristic =>
    cases data with
    | mapReduce data => exact MapReduceHeuristic.apply_reportable h
    | spark data => cases h
  | spark heuristic =>
    cases data with
    | mapReduce data => cases h
    | spark data => exact SparkHeuristic.apply_reportable h

theorem points_eq {outcome : Option HeuristicResult}
    (h : heuristic.apply platform data = .ok outcome) :
    heuristic.points platform data = outcome.elim 0 HeuristicResult.score := by
  cases outcome with
  | none => simp [points, h]
  | some result => simp [points, h, (apply_reportable h).score]

/-- There are no tasks in data that is empty. -/
theorem points_of_isEmpty (hempty : HadoopApplicationData.isEmpty data = true) :
    heuristic.points platform data = 0 := by
  have htasks : heuristic.numTasks data = 0 := by
    cases heuristic with
    | spark heuristic => rfl
    | mapReduce heuristic =>
      cases data with
      | spark data => rfl
      | mapReduce data =>
        simp only [HadoopApplicationData.isEmpty, Bool.and_eq_true] at hempty
        obtain ⟨⟨-, hmapper⟩, hreducer⟩ := hempty
        have harray : ∀ array, data.val.numTasks array = 0 := by
          rintro (_ | _)
          · cases h : data.val.mapperData <;> simp_all [MapReduceApplicationData.numTasks]
          · cases h : data.val.reducerData <;> simp_all [MapReduceApplicationData.numTasks]
        rw [numTasks, MapReduceHeuristic.numTasks]
        cases heuristic.tasks with
        | none => rfl
        | some array => exact harray array
  rw [points, htasks]
  split <;> simp

end ShippedHeuristic

end drelephant.analysis
