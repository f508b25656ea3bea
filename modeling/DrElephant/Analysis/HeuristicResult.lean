import DrElephant.Analysis.Severity

namespace drelephant.analysis

structure HeuristicResultDetails where
  name : Option String
  value : Option String
  details : Option String
  deriving DecidableEq, Repr

structure HeuristicResult where
  heuristicClass : Option String
  heuristicName : Option String
  severity : Severity
  score : Int
  heuristicResultDetails : List HeuristicResultDetails
  deriving DecidableEq, Repr

/-- The name and the class under which HeuristicConf.xml configures a heuristic. -/
structure HeuristicConfigurationData where
  heuristicName : String
  className : String
  deriving DecidableEq, Repr

namespace HeuristicResult

/-- A result of a configured heuristic that has no details yet. -/
def new (conf : HeuristicConfigurationData) (severity : Severity) (score : Int) : HeuristicResult where
  heuristicClass := some conf.className
  heuristicName := some conf.heuristicName
  severity := severity
  score := score
  heuristicResultDetails := []

def addResultDetail (result : HeuristicResult) (name value : String)
    (details : Option String := none) : HeuristicResult :=
  { result with
    heuristicResultDetails := result.heuristicResultDetails ++ [⟨some name, some value, details⟩] }

/-- The value of the detail with a name. -/
def detail (result : HeuristicResult) (name : String) : Option String :=
  (result.heuristicResultDetails.find? fun detail => detail.name == some name).bind
    HeuristicResultDetails.value

section addResultDetail

variable (result : HeuristicResult) (name value : String) (details : Option String)

@[simp] theorem addResultDetail_severity :
    (result.addResultDetail name value details).severity = result.severity := rfl

@[simp] theorem addResultDetail_details :
    (result.addResultDetail name value details).heuristicResultDetails =
      result.heuristicResultDetails ++ [⟨some name, some value, details⟩] := rfl

end addResultDetail

@[simp] theorem new_severity (conf : HeuristicConfigurationData) (severity : Severity) (score : Int) :
    (new conf severity score).severity = severity := rfl

@[simp] theorem new_details (conf : HeuristicConfigurationData) (severity : Severity) (score : Int) :
    (new conf severity score).heuristicResultDetails = [] := rfl

end HeuristicResult

/-- Stands in for the heuristics when there is no data to run them on. -/
def HeuristicResult.NO_DATA : HeuristicResult where
  heuristicClass := some "NoDataReceived"
  heuristicName := some "No Data Received"
  severity := .LOW
  score := 0
  heuristicResultDetails := [⟨some "No Data Received", some "", none⟩]

end drelephant.analysis
