import DrElephant.Analysis.AnalyticJob
import DrElephant.Analysis.HeuristicResult
import DrElephant.Java.Exception

open java.lang

namespace drelephant.analysis

/-- `java.util.Properties` read by key. -/
abbrev Properties := String → Option String

/-- Holds the information of a finished Hadoop application. -/
class HadoopApplicationData (δ : Type) where
  getAppId : δ → Option String
  getConf : δ → Option Properties
  getApplicationType : δ → ApplicationType
  isEmpty : δ → Bool

/-- Data without contents. -/
instance : HadoopApplicationData Unit where
  getAppId _ := none
  getConf _ := none
  getApplicationType _ := ⟨""⟩
  isEmpty _ := true

/-- A job type; the compiled pattern is the set of strings it matches whole. -/
structure JobType where
  name : String
  confName : Option String
  confPattern : Option (String → Bool)

/-- Undefined configuration names and patterns match nothing. -/
def JobType.matchType (type : JobType) (jobProp : Option Properties) : Except JavaException Bool :=
  match type.confName, type.confPattern with
  | some confName, some confPattern =>
    match jobProp with
    | none => .error .nullPointer
    | some jobProp => .ok ((jobProp confName).any confPattern)
  | _, _ => .ok false

/-- Whether the key of a type is there and its pattern matches the whole value. -/
def JobType.fits (type : JobType) (jobProp : Properties) : Bool :=
  match type.confName, type.confPattern with
  | some confName, some confPattern => (jobProp confName).any confPattern
  | _, _ => false

theorem JobType.matchType_some (type : JobType) (jobProp : Properties) :
    type.matchType (some jobProp) = .ok (type.fits jobProp) := by
  rw [matchType, fits]
  split <;> rfl

/-- A fetcher returns the data of a job. It may also set the tracking url of
the job, to the page of the history server. -/
abbrev ElephantFetcher (δ : Type) := AnalyticJob → Except JavaException (Option δ) × Option String

abbrev Heuristic (δ : Type) := δ → Except JavaException (Option HeuristicResult)

/-- The configured fetchers, heuristics and job types of each application type,
and the supported application types by name. -/
structure ElephantContext (δ : Type) where
  typeToFetcher : ApplicationType → Option (ElephantFetcher δ)
  typeToHeuristics : ApplicationType → Option (List (Heuristic δ))
  appTypeToJobTypes : ApplicationType → Option (List JobType)
  nameToType : String → Option ApplicationType
  toUpperCase : String → String

namespace ElephantContext

variable {δ : Type}

def getApplicationTypeForName (context : ElephantContext δ) (typeName : String) :
    Option ApplicationType :=
  context.nameToType (context.toUpperCase typeName)

/-- The first job type of a list that matches. -/
def firstMatch (jobProp : Option Properties) : List JobType → Except JavaException (Option JobType)
  | [] => .ok none
  | type :: types => do
    if ← type.matchType jobProp then pure (some type) else firstMatch jobProp types

theorem firstMatch_some (jobProp : Properties) (types : List JobType) :
    firstMatch (some jobProp) types = .ok (types.find? (·.fits jobProp)) := by
  induction types with
  | nil => rfl
  | cons type types ih =>
    rw [firstMatch, JobType.matchType_some, ih, List.find?_cons]
    cases hfits : type.fits jobProp <;> rfl

/-- Without properties the first type that is asked for them throws. -/
theorem firstMatch_none_returns_iff (types : List JobType) :
    (∃ type, firstMatch none types = .ok type) ↔
      ∀ type ∈ types, type.confName = none ∨ type.confPattern = none := by
  induction types with
  | nil => simp [firstMatch]
  | cons type types ih =>
    obtain ⟨name, _ | confName, _ | confPattern⟩ := type
    case some.some => simp [firstMatch, JobType.matchType, bind, Except.bind]
    all_goals simpa [firstMatch, JobType.matchType, bind, Except.bind] using ih

/-- A context that supports one application type, without any heuristic. -/
def single (typeName : String) (fetcher : ElephantFetcher δ) : ElephantContext δ where
  typeToFetcher _ := some fetcher
  typeToHeuristics _ := some []
  appTypeToJobTypes _ := some []
  nameToType name := if name = typeName then some ⟨typeName⟩ else none
  toUpperCase name := name

variable [HadoopApplicationData δ]

def matchJobType (context : ElephantContext δ) (data : Option δ) :
    Except JavaException (Option JobType) :=
  match data with
  | none => .ok none
  | some data =>
    match context.appTypeToJobTypes (HadoopApplicationData.getApplicationType data) with
    | none => .error .nullPointer
    | some jobTypeList => firstMatch (HadoopApplicationData.getConf data) jobTypeList

end ElephantContext

end drelephant.analysis
