import DrElephant.Analysis.AnalyticJobGeneratorHadoop2
import DrElephant.Configurations.Components
import DrElephant.Configurations.JobTypeConfiguration
import DrElephant.Library.LiveView

open collections drelephant.configurations drelephant.configurations.jobtype java.lang

namespace drelephant.analysis

/-- Why a class could not be made use of. -/
inductive LoadFailure
  | classNotFound
  | instantiation
  | illegalAccess
  | runtime
  | invocationTarget
  | noSuchMethod
  deriving DecidableEq, Repr

/-- Why a view could not be rendered. -/
inductive ViewFailure
  | classNotFound
  | illegalAccess
  | runtime
  | invocationTarget
  | noSuchMethod
  deriving DecidableEq, Repr

/-- The classes that the play application can load, and what their constructors
and their views yield. A class of another kind fails with a runtime exception. -/
structure ClassLoader (δ : Type) where
  newFetcher : fetcher.FetcherConfigurationData → Except LoadFailure (ElephantFetcher δ)
  newHeuristic : heuristic.HeuristicConfigurationData → Except LoadFailure (Heuristic δ)
  render : String → Except ViewFailure String

/-- The configuration files by their elements. -/
structure Documents where
  fetchers : List ComponentNode
  heuristics : List ComponentNode
  jobTypes : List JobTypeNode

/-- The maps of the context while they are filled. -/
structure LoadedContext (δ : Type) where
  nameToType : OrderedMap String ApplicationType := .empty
  typeToHeuristics : OrderedMap ApplicationType (List (Heuristic δ)) := .empty
  typeToFetcher : OrderedMap ApplicationType (ElephantFetcher δ) := .empty
  heuristicToView : OrderedMap String String := .empty
  appTypeToJobTypes : OrderedMap ApplicationType (List JobType) := .empty

/-- The orders in which the hash maps are walked. -/
structure ContextOrders (δ : Type) where
  defaults : HashOrder ApplicationType JobType
  jobTypes : HashOrder ApplicationType (List JobType)
  heuristics : HashOrder ApplicationType (List (Heuristic δ))
  fetchers : HashOrder ApplicationType (ElephantFetcher δ)

/-- The functions of the platform that the configuration is read with. -/
structure ContextPlatform where
  compile : String → Option (String → Bool)
  toUpperCase : String → String

namespace LoadedContext

variable {δ : Type}

def LoadFailure.message (component className : String) : LoadFailure → String
  | .classNotFound => "Could not find class " ++ className
  | .instantiation => "Could not instantiate class " ++ className
  | .illegalAccess => "Could not access constructor for class" ++ className
  | .runtime => className ++ " is not a valid " ++ component ++ " class."
  | .invocationTarget => "Could not invoke class " ++ className
  | .noSuchMethod => "Could not find constructor for class " ++ className

def ViewFailure.message (viewName : String) : ViewFailure → String
  | .classNotFound => "Could not find view " ++ viewName
  | .illegalAccess => "Could not access render on view" ++ viewName
  | .runtime => viewName ++ " is not a valid view class."
  | .invocationTarget => "Could not invoke view " ++ viewName
  | .noSuchMethod => "Could not find method render for view " ++ viewName

section load

variable (loader : ClassLoader δ)

/-- The first fetcher that is configured for a type is the one that is kept. -/
def loadFetcher (context : LoadedContext δ) (data : fetcher.FetcherConfigurationData) :
    Except JavaException (LoadedContext δ) :=
  match loader.newFetcher data with
  | .error failure => .error (.runtime (LoadFailure.message "Fetcher" data.className failure))
  | .ok elephantFetcher =>
    if (context.typeToFetcher.get? data.appType).isNone then
      .ok { context with typeToFetcher := context.typeToFetcher.put data.appType elephantFetcher }
    else .ok context

/-- The heuristics of a type are listed in the order of their configuration. -/
def loadHeuristic (context : LoadedContext δ) (data : heuristic.HeuristicConfigurationData) :
    Except JavaException (LoadedContext δ) :=
  match loader.newHeuristic data with
  | .error failure => .error (.runtime (LoadFailure.message "Heuristic" data.className failure))
  | .ok elephantHeuristic =>
    let heuristics := (context.typeToHeuristics.get? data.appType).getD []
    match loader.render data.viewName with
    | .error failure => .error (.runtime (ViewFailure.message data.viewName failure))
    | .ok page =>
      .ok { context with
        typeToHeuristics := context.typeToHeuristics.put data.appType (heuristics ++ [elephantHeuristic])
        heuristicToView := context.heuristicToView.put data.heuristicName page }

/-- Loads one component after the other. -/
def loadAll {α : Type} (load : LoadedContext δ → α → Except JavaException (LoadedContext δ))
    (context : LoadedContext δ) : List α → Except JavaException (LoadedContext δ)
  | [] => .ok context
  | data :: rest => do
    let context ← load context data
    loadAll load context rest

variable (platform : ContextPlatform) (orders : ContextOrders δ) (documents : Documents)

/-- The maps before the supported types are configured. -/
def loadComponents : Except JavaException (LoadedContext δ) := do
  let fetchers ← fetcher.parseFetcherConfiguration platform.toUpperCase documents.fetchers
  let context ← loadAll (loadFetcher loader) {} fetchers
  let heuristics ← heuristic.parseHeuristicConfiguration platform.toUpperCase documents.heuristics
  let context ← loadAll (loadHeuristic loader) context heuristics
  let jobTypes ← parseJobTypeConfiguration platform.compile platform.toUpperCase orders.defaults
    orders.jobTypes documents.jobTypes
  pure { context with appTypeToJobTypes := jobTypes }

end load

section supported

/-- The intersection of the three key sets, by what they hold at the moment. -/
def supportedTypes (context : LoadedContext δ) (type : ApplicationType) : Bool :=
  (context.typeToFetcher.containsKey type && context.typeToHeuristics.containsKey type) &&
    context.appTypeToJobTypes.containsKey type

def fetcherField : MapField (LoadedContext δ) ApplicationType (ElephantFetcher δ) where
  get := typeToFetcher
  set context typeToFetcher := { context with typeToFetcher }
  get_set _ _ := rfl
  set_get _ := rfl
  set_set _ _ _ := rfl

def heuristicsField : MapField (LoadedContext δ) ApplicationType (List (Heuristic δ)) where
  get := typeToHeuristics
  set context typeToHeuristics := { context with typeToHeuristics }
  get_set _ _ := rfl
  set_get _ := rfl
  set_set _ _ _ := rfl

def jobTypesField : MapField (LoadedContext δ) ApplicationType (List JobType) where
  get := appTypeToJobTypes
  set context appTypeToJobTypes := { context with appTypeToJobTypes }
  get_set _ _ := rfl
  set_get _ := rfl
  set_set _ _ _ := rfl

/-- `keySet().retainAll(supportedTypes)` -/
def retainSupported {ν : Type} (field : MapField (LoadedContext δ) ApplicationType ν)
    (order : HashOrder ApplicationType ν) (context : LoadedContext δ) : LoadedContext δ :=
  field.retainAll supportedTypes context ((order.iterate (field.get context).entries).map Prod.fst)

/-- The supported types in the order in which the intersection is walked, that
of the fetchers. -/
def supportedTypesInOrder (order : HashOrder ApplicationType (ElephantFetcher δ))
    (context : LoadedContext δ) : List ApplicationType :=
  ((order.iterate context.typeToFetcher.entries).map Prod.fst).filter (supportedTypes context)

/-- Decides what application types can be supported. -/
def configureSupportedApplicationTypes (orders : ContextOrders δ) (context : LoadedContext δ) :
    LoadedContext δ :=
  let context := retainSupported fetcherField orders.fetchers context
  let context := retainSupported heuristicsField orders.heuristics context
  let context := retainSupported jobTypesField orders.jobTypes context
  { context with
    nameToType := (supportedTypesInOrder orders.fetchers context).foldl
      (fun nameToType type => nameToType.put type.name type) context.nameToType }

end supported

/-- The context as it is used from then on. -/
def toElephantContext (toUpperCase : String → String) (context : LoadedContext δ) : ElephantContext δ where
  typeToFetcher := context.typeToFetcher.get?
  typeToHeuristics := context.typeToHeuristics.get?
  appTypeToJobTypes := context.appTypeToJobTypes.get?
  nameToType := context.nameToType.get?
  toUpperCase := toUpperCase

/-- It is important to configure supported types in the LAST step so that we
could have information from all configurable components. -/
def loadConfiguration (loader : ClassLoader δ) (platform : ContextPlatform) (orders : ContextOrders δ)
    (documents : Documents) : Except JavaException (ElephantContext δ) := do
  let context ← loadComponents loader platform orders documents
  pure (toElephantContext platform.toUpperCase (configureSupportedApplicationTypes orders context))

end LoadedContext

end drelephant.analysis
