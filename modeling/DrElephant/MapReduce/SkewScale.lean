import Mathlib
import DrElephant.Math.TwoGroups
import DrElephant.MapReduce.Heuristics.GenericDataSkew
import DrElephant.MapReduce.SampledTasks

open drelephant.analysis drelephant.math ieee java.lang machine

namespace drelephant.mapreduce

/-- The size of a group of sampled tasks in proportion to all tasks, rounded
either way. -/
def ScaledSize (numTasks sampled size scaled : Nat) : Prop :=
  |(scaled * sampled : Int) - numTasks * size| < sampled

/-- The same two sizes occur in the same proportions. -/
def SameProportions (sample whole : List Int) : Prop :=
  (∃ a b, ∀ value ∈ whole, value = a ∨ value = b) ∧
    ∀ value, sample.count value * whole.length = whole.count value * sample.length

namespace GenericDataSkewHeuristic

section report

variable (heuristic : GenericDataSkewHeuristic) (formats : NumberFormats) (numTasks : Nat)
  (inputBytes : List Int)

/-- The two groups of the input bytes with their averages. -/
def groupsAndAverages (inputBytes : List Int) : (List Int × Int) × (List Int × Int) :=
  let groups := Statistics.findTwoGroups inputBytes
  ((groups.1, Statistics.average groups.1), (groups.2, Statistics.average groups.2))

/-- The details that report groups of the given sizes. -/
def detailsOfSizes (groupA groupB : Nat) : List HeuristicResultDetails :=
  let (a, b) := groupsAndAverages inputBytes
  [⟨some "Number of tasks", some (toString numTasks), none⟩,
    ⟨some "Group A",
      some (toString groupA ++ " tasks @ " ++ formats.byteCountToDisplaySize a.2 ++ " avg"), none⟩,
    ⟨some "Group B",
      some (toString groupB ++ " tasks @ " ++ formats.byteCountToDisplaySize b.2 ++ " avg"), none⟩]

/-- The severity when the smaller group has the given size. -/
def severityOfSize (groupA : Nat) : Severity :=
  let (a, b) := groupsAndAverages inputBytes
  Severity.min
    (Severity.min
      (heuristic.getDeviationSeverity (min a.2 b.2) (wrap64 |wrap64 (b.2 - a.2)|))
      (heuristic.getFilesSeverity b.2))
    (Severity.getSeverityAscending (.ofInt groupA) heuristic.numTasksLimits)

/-- A result that judges the whole job by a sample of its tasks. -/
structure JudgesJob (result : HeuristicResult) : Prop where
  groups : ∃ groupA groupB,
    ScaledSize numTasks inputBytes.length (groupsAndAverages inputBytes).1.1.length groupA ∧
    ScaledSize numTasks inputBytes.length (groupsAndAverages inputBytes).2.1.length groupB ∧
    groupA + groupB = numTasks ∧
    result.heuristicResultDetails = detailsOfSizes formats numTasks inputBytes groupA groupB ∧
    result.severity = heuristic.severityOfSize inputBytes groupA
  severity : inputBytes.length < numTasks → ∀ whole, whole.length = numTasks →
    SameProportions inputBytes whole →
    result.severity = (heuristic.report formats numTasks whole).severity

theorem report_details : (heuristic.report formats numTasks inputBytes).heuristicResultDetails =
    detailsOfSizes formats numTasks inputBytes (groupsAndAverages inputBytes).1.1.length
      (groupsAndAverages inputBytes).2.1.length := rfl

theorem report_severity : (heuristic.report formats numTasks inputBytes).severity =
    heuristic.severityOfSize inputBytes (groupsAndAverages inputBytes).1.1.length := rfl

theorem length_groups : (groupsAndAverages inputBytes).1.1.length +
    (groupsAndAverages inputBytes).2.1.length = inputBytes.length :=
  Statistics.length_findTwoGroups inputBytes

end report

section judgesJob

variable {heuristic : GenericDataSkewHeuristic} {formats : NumberFormats} {numTasks : Nat}
  {inputBytes : List Int}

/-- A size in front of a text that goes on with a space can be read back. -/
private theorem size_inj {m n : Nat} {rest rest' : String}
    (h : toString m ++ " tasks @ " ++ rest = toString n ++ " tasks @ " ++ rest') : m = n := by
  have hspan : ∀ k rest, (toString k ++ " tasks @ " ++ rest).toList.takeWhile Char.isDigit =
      (Nat.repr k).toList := by
    intro k rest
    have hspace : " tasks @ ".toList = ' ' :: "tasks @ ".toList := rfl
    rw [String.toList_append, String.toList_append, hspace, List.append_assoc, Nat.toString_eq_repr,
      Nat.toList_repr, List.takeWhile_append_of_pos fun c hc =>
        Nat.isDigit_of_mem_toDigits (by decide) (by decide) hc]
    exact List.append_nil _
  have hread := congrArg (fun text : String => text.toList.takeWhile Char.isDigit) h
  simp only [hspan, String.toList_inj] at hread
  exact Nat.repr_injective hread

theorem detailsOfSizes_inj {groupA groupB groupA' groupB' : Nat}
    (h : detailsOfSizes formats numTasks inputBytes groupA groupB =
      detailsOfSizes formats numTasks inputBytes groupA' groupB') :
    groupA = groupA' ∧ groupB = groupB' := by
  simp only [detailsOfSizes, List.cons.injEq, HeuristicResultDetails.mk.injEq, Option.some.injEq,
    true_and, and_true, String.append_assoc] at h
  exact ⟨size_inj (by simpa only [String.append_assoc] using h.1),
    size_inj (by simpa only [String.append_assoc] using h.2)⟩

/-- A size is scaled to itself when all tasks are sampled. -/
theorem scaledSize_self {sampled size : Nat} (h : 0 < sampled) : ScaledSize sampled sampled size size := by
  rw [ScaledSize, mul_comm, sub_self, abs_zero]
  exact_mod_cast h

/-- The sizes that are reported add up to the number of sampled tasks. -/
theorem judgesJob_report_iff (hsampled : inputBytes ≠ []) :
    heuristic.JudgesJob formats numTasks inputBytes (heuristic.report formats numTasks inputBytes) ↔
      inputBytes.length = numTasks := by
  have hlength := length_groups inputBytes
  constructor
  · rintro ⟨⟨groupA, groupB, -, -, hsum, hdetails, -⟩, -⟩
    rw [report_details] at hdetails
    obtain ⟨hgroupA, hgroupB⟩ := detailsOfSizes_inj hdetails
    omega
  · rintro rfl
    have hpos := List.length_pos_iff.mpr hsampled
    exact ⟨⟨_, _, scaledSize_self hpos, scaledSize_self hpos, hlength, report_details .., report_severity ..⟩,
      fun hlt => absurd hlt (lt_irrefl _)⟩

end judgesJob

section apply

variable {data : MapReduceApplicationData} {tasks : List MapReduceTaskData}

theorem apply_eq (heuristic : GenericDataSkewHeuristic) (formats : NumberFormats)
    (h : data.SampledTasks heuristic.tasks tasks) :
    heuristic.apply formats data = .ok (some (heuristic.report formats tasks.length
      ((tasks.filter MapReduceTaskData.sampled).map (·.counterValue heuristic.counterName)))) :=
  h.apply_eq (fun _ htask => h.counter htask heuristic.counterName) (heuristic.report formats)

/-- The heuristic reports on the whole job. -/
def JudgedOnJob (heuristic : GenericDataSkewHeuristic) (formats : NumberFormats)
    (data : MapReduceApplicationData) (tasks : List MapReduceTaskData) : Prop :=
  ∃ result, heuristic.apply formats data = .ok (some result) ∧
    heuristic.JudgesJob formats tasks.length
      ((tasks.filter MapReduceTaskData.sampled).map (·.counterValue heuristic.counterName)) result

private theorem judgedOnJob_iff_length {heuristic : GenericDataSkewHeuristic} {formats : NumberFormats}
    (h : data.SampledTasks heuristic.tasks tasks) : heuristic.JudgedOnJob formats data tasks ↔
      (tasks.filter MapReduceTaskData.sampled).length = tasks.length := by
  simp only [JudgedOnJob, apply_eq heuristic formats h, Except.ok.injEq, Option.some.injEq, exists_eq_left']
  rw [judgesJob_report_iff (by simpa using h.sampled), List.length_map]

/-- Data skew is judged on the job when all its tasks are sampled, and otherwise
on the sample. -/
theorem judgedOnJob_iff (heuristic : GenericDataSkewHeuristic) (formats : NumberFormats)
    (h : data.SampledTasks heuristic.tasks tasks) :
    heuristic.JudgedOnJob formats data tasks ↔ ∀ task ∈ tasks, task.sampled = true := by
  rw [judgedOnJob_iff_length h, MapReduceApplicationData.length_sampled_eq_iff]

/-- Mappers that have read five bytes each. -/
def alikeMappers (sampled unsampled : Nat) : MapReduceApplicationData :=
  .partlySampled (taskWithCounter .HDFS_BYTES_READ 5) sampled unsampled

/-- The mapper data skew with limits of one to four. -/
def lowLimits : GenericDataSkewHeuristic :=
  let limits : Severity.Limits := ⟨.ofInt 1, .ofInt 2, .ofInt 3, .ofInt 4⟩
  MapperDataSkewHeuristic ⟨"Mapper Data Skew", "MapperDataSkewHeuristic"⟩ limits limits limits

private theorem sampledTasks_alikeMappers {sampled unsampled : Nat} (hsampled : 0 < sampled)
    (hlength : sampled + unsampled < 2 ^ 31) : (alikeMappers sampled unsampled).SampledTasks
      lowLimits.tasks (MapReduceApplicationData.partlySampledTasks
        (taskWithCounter .HDFS_BYTES_READ 5) sampled unsampled) :=
  MapReduceApplicationData.sampledTasks_partlySampled hsampled hlength
    (counters_taskWithCounter (by decide) (by decide))

theorem judgedOnJob_allSampled : lowLimits.JudgedOnJob ⟨toString, fun _ => "", fun _ => ""⟩ (alikeMappers 3 0)
    (MapReduceApplicationData.partlySampledTasks (taskWithCounter .HDFS_BYTES_READ 5) 3 0) :=
  (judgedOnJob_iff _ _ (sampledTasks_alikeMappers (by decide) (by decide))).mpr (by decide)

/-- Of 201 mappers 200 are sampled, and the groups account for 200 tasks. -/
theorem not_judgedOnJob_sample :
    ¬ lowLimits.JudgedOnJob ⟨toString, fun _ => "", fun _ => ""⟩ (alikeMappers 200 1)
      (MapReduceApplicationData.partlySampledTasks (taskWithCounter .HDFS_BYTES_READ 5) 200 1) := by
  rw [judgedOnJob_iff_length (sampledTasks_alikeMappers (by decide) (by decide)),
    MapReduceApplicationData.filter_partlySampledTasks,
    MapReduceApplicationData.length_partlySampledTasks, List.length_replicate]
  decide

end apply

end GenericDataSkewHeuristic

end drelephant.mapreduce
