import DrElephant.Analysis.AnalyticJob
import DrElephant.Java.Exception
import DrElephant.Library.OrderedMap

open collections drelephant.analysis java.lang

namespace drelephant.configurations

/-- An element that configures a class, by the texts of the elements in it; the
text of an element that is not there is null. -/
structure ComponentNode where
  classname : Option String
  heuristicname : Option String := none
  viewname : Option String := none
  applicationtype : Option String
  params : List (String × String) := []

/-- Given a configuration element, extract the params map. Of several elements
with one name the first counts. -/
def getConfigurationParameters (node : ComponentNode) : OrderedMap String String :=
  node.params.foldl
    (fun paramsMap param =>
      if paramsMap.containsKey param.1 then paramsMap else paramsMap.put param.1 param.2)
    .empty

/-- The text of a tag that has to be there and must not be empty. -/
def requiredTag (tag place : String) (text : Option String) : Except JavaException String :=
  match text with
  | none => .error (.runtime ("No tag '" ++ tag ++ "' in " ++ place))
  | some text =>
    if text = "" then .error (.runtime ("Empty tag '" ++ tag ++ "' in " ++ place)) else .ok text

/-- The application type of a component. The text of an element is never null. -/
def requiredType (toUpperCase : String → String) (place : String) (text : Option String) :
    Except JavaException ApplicationType :=
  match text with
  | none => .error (.runtime ("No tag or invalid tag 'applicationtype' in " ++ place))
  | some text => .ok ⟨toUpperCase text⟩

section parse

variable (toUpperCase : String → String)

/-- Parses the elements of a document, the first of which is number 1. -/
def parseElements {α : Type} (parse : Nat → ComponentNode → Except JavaException α) (n : Nat) :
    List ComponentNode → Except JavaException (List α)
  | [] => .ok []
  | node :: nodes => do
    let data ← parse (n + 1) node
    let rest ← parseElements parse (n + 1) nodes
    pure (data :: rest)

namespace fetcher

structure FetcherConfigurationData where
  className : String
  appType : ApplicationType
  paramMap : OrderedMap String String

def parseFetcher (n : Nat) (node : ComponentNode) : Except JavaException FetcherConfigurationData := do
  let className ← requiredTag "classname" ("fetcher " ++ toString n) node.classname
  let appType ← requiredType toUpperCase ("fetcher " ++ toString n ++ " classname " ++ className)
    node.applicationtype
  pure ⟨className, appType, getConfigurationParameters node⟩

/-- Parses the Fetcher configuration file and loads the Fetcher Information to a
list of FetcherConfigurationData. -/
def parseFetcherConfiguration (nodes : List ComponentNode) :
    Except JavaException (List FetcherConfigurationData) :=
  parseElements (parseFetcher toUpperCase) 0 nodes

end fetcher

namespace heuristic

structure HeuristicConfigurationData where
  heuristicName : String
  className : String
  viewName : String
  appType : ApplicationType
  paramMap : OrderedMap String String

def parseHeuristic (n : Nat) (node : ComponentNode) :
    Except JavaException HeuristicConfigurationData := do
  let className ← requiredTag "classname" ("heuristic " ++ toString n) node.classname
  let place := "heuristic " ++ toString n ++ " classname " ++ className
  let heuristicName ← requiredTag "heuristicname" place node.heuristicname
  let viewName ← requiredTag "viewname" place node.viewname
  let appType ← requiredType toUpperCase place node.applicationtype
  pure ⟨heuristicName, className, viewName, appType, getConfigurationParameters node⟩

def parseHeuristicConfiguration (nodes : List ComponentNode) :
    Except JavaException (List HeuristicConfigurationData) :=
  parseElements (parseHeuristic toUpperCase) 0 nodes

end heuristic

end parse

end drelephant.configurations
