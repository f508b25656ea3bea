import DrElephant.Analysis.LoadedContext

open collections drelephant.configurations drelephant.configurations.jobtype java.lang

namespace drelephant.analysis.LoadedContext

variable {δ : Type}

section retain

variable {ν : Type} {field : MapField (LoadedContext δ) ApplicationType ν}

/-- What the intersection knows of one of the maps is the keys it has. -/
structure PartOfView (field : MapField (LoadedContext δ) ApplicationType ν) : Prop where
  reads : field.Reads supportedTypes
  within : field.Within supportedTypes

theorem partOfView_fetchers : PartOfView (fetcherField (δ := δ)) where
  reads context m type h := by
    simp only [supportedTypes, fetcherField] at h ⊢
    rw [h]
  within context type h := by
    simp only [supportedTypes, Bool.and_eq_true] at h
    exact h.1.1

theorem partOfView_heuristics : PartOfView (heuristicsField (δ := δ)) where
  reads context m type h := by
    simp only [supportedTypes, heuristicsField] at h ⊢
    rw [h]
  within context type h := by
    simp only [supportedTypes, Bool.and_eq_true] at h
    exact h.1.2

theorem partOfView_jobTypes : PartOfView (jobTypesField (δ := δ)) where
  reads context m type h := by
    simp only [supportedTypes, jobTypesField] at h ⊢
    rw [h]
  within context type h := by
    simp only [supportedTypes, Bool.and_eq_true] at h
    exact h.2

theorem retainSupported_eq (hpart : PartOfView field) (order : HashOrder ApplicationType ν)
    (context : LoadedContext δ) : retainSupported field order context =
      field.set context ((field.get context).filterKeys (supportedTypes context)) := by
  refine MapField.retainAll_eq hpart.reads ?_
  intro type htype
  exact ((order.perm _).map Prod.fst).mem_iff.mpr htype

/-- The intersection stays what it was while the maps shrink. -/
theorem supportedTypes_retainSupported (hpart : PartOfView field) (order : HashOrder ApplicationType ν)
    (context : LoadedContext δ) :
    supportedTypes (retainSupported field order context) = supportedTypes context := by
  rw [retainSupported_eq hpart]
  exact MapField.view_filterKeys hpart.reads hpart.within context

/-- The types that are registered by name are those of the intersection. -/
theorem mem_supportedTypesInOrder (order : HashOrder ApplicationType (ElephantFetcher δ))
    (context : LoadedContext δ) (type : ApplicationType) :
    type ∈ supportedTypesInOrder order context ↔ supportedTypes context type = true := by
  rw [supportedTypesInOrder, List.mem_filter, and_iff_right_iff_imp]
  intro hsupported
  have hkey := partOfView_fetchers.within context type hsupported
  obtain ⟨type', htype', heq⟩ := OrderedMap.containsKey_iff.mp hkey
  rw [← eq_of_beq heq]
  exact ((order.perm _).map Prod.fst).mem_iff.mpr htype'

theorem get?_foldl_name {types : List ApplicationType} {name : String} {type : ApplicationType} :
    (types.foldl (fun nameToType type => nameToType.put type.name type) OrderedMap.empty).get? name =
      some type ↔ type ∈ types ∧ type.name = name := by
  have hentries : types.foldl (fun nameToType type => nameToType.put type.name type) OrderedMap.empty =
      OrderedMap.empty.putAll (types.map fun type => (type.name, type)) := by
    rw [OrderedMap.putAll, List.foldl_map]
  rw [hentries, OrderedMap.get?_putAll, OrderedMap.get?_empty, Option.or_none, ← List.map_reverse,
    List.find?_map, Option.map_map]
  constructor
  · intro h
    obtain ⟨found, hfound, rfl⟩ := Option.map_eq_some_iff.mp h
    have hname := List.find?_some hfound
    exact ⟨List.mem_reverse.mp (List.mem_of_find?_eq_some hfound), eq_of_beq hname⟩
  · rintro ⟨hmem, rfl⟩
    have hsome : (types.reverse.find? fun other => other.name == type.name).isSome = true :=
      List.find?_isSome.mpr ⟨type, List.mem_reverse.mpr hmem, beq_self_eq_true _⟩
    obtain ⟨found, hfound⟩ := Option.isSome_iff_exists.mp hsome
    have hname : found.name = type.name := by
      have hfoundName := List.find?_some hfound
      exact eq_of_beq hfoundName
    -- a type is its name
    obtain ⟨name⟩ := found
    obtain rfl : name = type.name := hname
    exact congrArg _ hfound

/-- The three maps keep the keys that all of them had, with their values, and
these keys are registered by their names. -/
theorem configureSupportedApplicationTypes_eq (orders : ContextOrders δ) (context : LoadedContext δ) :
    ∃ types : List ApplicationType, (∀ type, type ∈ types ↔ supportedTypes context type = true) ∧
      configureSupportedApplicationTypes orders context = { context with
        typeToFetcher := context.typeToFetcher.filterKeys (supportedTypes context)
        typeToHeuristics := context.typeToHeuristics.filterKeys (supportedTypes context)
        appTypeToJobTypes := context.appTypeToJobTypes.filterKeys (supportedTypes context)
        nameToType := types.foldl (fun nameToType type => nameToType.put type.name type)
          context.nameToType } := by
  have hfetchers := retainSupported_eq partOfView_fetchers orders.fetchers context
  have hfetchersView := supportedTypes_retainSupported partOfView_fetchers orders.fetchers context
  simp only [configureSupportedApplicationTypes]
  generalize retainSupported fetcherField orders.fetchers context = first at hfetchers hfetchersView
  have hheuristics := retainSupported_eq partOfView_heuristics orders.heuristics first
  have hheuristicsView := supportedTypes_retainSupported partOfView_heuristics orders.heuristics first
  generalize retainSupported heuristicsField orders.heuristics first = second at hheuristics hheuristicsView
  have hjobTypes := retainSupported_eq partOfView_jobTypes orders.jobTypes second
  have hjobTypesView := supportedTypes_retainSupported partOfView_jobTypes orders.jobTypes second
  generalize retainSupported jobTypesField orders.jobTypes second = third at hjobTypes hjobTypesView
  refine ⟨supportedTypesInOrder orders.fetchers third, fun type => ?_, ?_⟩
  · rw [mem_supportedTypesInOrder, hjobTypesView, hheuristicsView, hfetchersView]
  · rw [hjobTypes, hheuristicsView, hheuristics, hfetchersView, hfetchers]
    rfl

end retain

section load

variable {loader : ClassLoader δ} {context loaded : LoadedContext δ}

/-- The fetcher that is configured first for a type. -/
def firstFetcher (loader : ClassLoader δ) (fetchers : List fetcher.FetcherConfigurationData)
    (type : ApplicationType) : Option (ElephantFetcher δ) :=
  (fetchers.find? fun data => data.appType == type).bind fun data => (loader.newFetcher data).toOption

/-- The heuristics of a type in the order of their configuration. -/
def configuredHeuristics (loader : ClassLoader δ) (heuristics : List heuristic.HeuristicConfigurationData)
    (type : ApplicationType) : List (Heuristic δ) :=
  (heuristics.filter fun data => data.appType == type).filterMap fun data =>
    (loader.newHeuristic data).toOption

theorem loadAll_loadFetcher {fetchers : List fetcher.FetcherConfigurationData}
    (h : loadAll (loadFetcher loader) context fetchers = .ok loaded) :
    loaded = { context with typeToFetcher := loaded.typeToFetcher } ∧
      ∀ type, loaded.typeToFetcher.get? type =
        (context.typeToFetcher.get? type).or (firstFetcher loader fetchers type) := by
  induction fetchers generalizing context with
  | nil =>
    obtain rfl := Except.ok.inj h
    exact ⟨rfl, fun type => by simp [firstFetcher]⟩
  | cons data fetchers ih =>
    simp only [loadAll, bind_eq_ok_iff] at h
    obtain ⟨next, hnext, hrest⟩ := h
    obtain ⟨hframe, hget⟩ := ih hrest
    rw [loadFetcher] at hnext
    split at hnext
    · cases hnext
    · rename_i fetcher hfetcher
      have hfirst : ∀ type, firstFetcher loader (data :: fetchers) type =
          if data.appType = type then some fetcher else firstFetcher loader fetchers type := by
        intro type
        by_cases htype : data.appType = type <;> simp [firstFetcher, htype, hfetcher, Except.toOption]
      split at hnext
      · rename_i hnew
        obtain rfl := Except.ok.inj hnext
        refine ⟨hframe, fun type => ?_⟩
        rw [hget, hfirst, OrderedMap.get?_put]
        by_cases htype : data.appType = type
        · subst htype
          simp [Option.isNone_iff_eq_none.mp hnew]
        · simp [htype]
      · rename_i hold
        obtain rfl := Except.ok.inj hnext
        refine ⟨hframe, fun type => ?_⟩
        rw [hget, hfirst]
        by_cases htype : data.appType = type
        · subst htype
          cases hget' : context.typeToFetcher.get? data.appType with
          | none => simp [hget'] at hold
          | some kept => rfl
        · simp [htype]

/-- A list that is in a map, as no empty list is. -/
def listed {α : Type} (l : List α) : Option (List α) := if l.isEmpty then none else some l

theorem listed_eq_some_iff {α : Type} {l l' : List α} : listed l = some l' ↔ l = l' ∧ l' ≠ [] := by
  cases l with
  | nil => simp [listed]
  | cons a l =>
    simp only [listed, List.isEmpty_cons, Bool.false_eq_true, if_false, Option.some.injEq]
    exact ⟨fun h => ⟨h, h ▸ List.cons_ne_nil _ _⟩, And.left⟩

theorem getD_listed {α : Type} (l : List α) : (listed l).getD [] = l := by
  cases l <;> rfl

theorem loadAll_loadHeuristic {heuristics : List heuristic.HeuristicConfigurationData}
    {lists : ApplicationType → List (Heuristic δ)}
    (hlists : ∀ type, context.typeToHeuristics.get? type = listed (lists type))
    (h : loadAll (loadHeuristic loader) context heuristics = .ok loaded) :
    (loaded.typeToFetcher = context.typeToFetcher ∧ loaded.nameToType = context.nameToType) ∧
      ∀ type, loaded.typeToHeuristics.get? type =
        listed (lists type ++ configuredHeuristics loader heuristics type) := by
  induction heuristics generalizing context lists with
  | nil =>
    obtain rfl := Except.ok.inj h
    exact ⟨⟨rfl, rfl⟩, fun type => by rw [hlists]; simp [configuredHeuristics]⟩
  | cons data heuristics ih =>
    simp only [loadAll, bind_eq_ok_iff] at h
    obtain ⟨next, hnext, hrest⟩ := h
    rw [loadHeuristic] at hnext
    split at hnext
    · cases hnext
    · rename_i heuristic hheuristic
      simp only at hnext
      split at hnext
      · cases hnext
      · rename_i page _
        obtain rfl := Except.ok.inj hnext
        have hadded : ∀ type, configuredHeuristics loader (data :: heuristics) type =
            (if data.appType = type then [heuristic] else []) ++ configuredHeuristics loader heuristics type := by
          intro type
          by_cases htype : data.appType = type <;>
            simp [configuredHeuristics, htype, hheuristic, Except.toOption]
        have hnextLists : ∀ type, (context.typeToHeuristics.put data.appType
            ((context.typeToHeuristics.get? data.appType).getD [] ++ [heuristic])).get? type =
              listed (lists type ++ if data.appType = type then [heuristic] else []) := by
          intro type
          rw [OrderedMap.get?_put, hlists, getD_listed]
          by_cases htype : data.appType = type
          · subst htype
            simp [listed]
          · simp [htype, hlists]
        obtain ⟨hframe, hget⟩ := ih hnextLists hrest
        refine ⟨hframe, fun type => ?_⟩
        rw [hget, hadded, List.append_assoc]

/-- What is loaded before the supported types are configured. -/
theorem loadComponents_spec {platform : ContextPlatform} {orders : ContextOrders δ} {documents : Documents}
    (h : loadComponents loader platform orders documents = .ok loaded) :
    ∃ fetchers heuristics,
      fetcher.parseFetcherConfiguration platform.toUpperCase documents.fetchers = .ok fetchers ∧
      heuristic.parseHeuristicConfiguration platform.toUpperCase documents.heuristics = .ok heuristics ∧
      parseJobTypeConfiguration platform.compile platform.toUpperCase orders.defaults orders.jobTypes
        documents.jobTypes = .ok loaded.appTypeToJobTypes ∧
      loaded.nameToType = .empty ∧
      (∀ type, loaded.typeToFetcher.get? type = firstFetcher loader fetchers type) ∧
      ∀ type, loaded.typeToHeuristics.get? type = listed (configuredHeuristics loader heuristics type) := by
  simp only [loadComponents, bind_eq_ok_iff, pure_eq_ok_iff] at h
  obtain ⟨fetchers, hfetchers, first, hfirst, heuristics, hheuristics, second, hsecond, jobTypes, hjobTypes,
    rfl⟩ := h
  obtain ⟨hframe, hfetcherOf⟩ := loadAll_loadFetcher hfirst
  have hnone : ∀ type, first.typeToHeuristics.get? type = listed [] := by
    intro type
    rw [hframe]
    rfl
  obtain ⟨⟨hsameFetchers, hsameNames⟩, hheuristicsOf⟩ := loadAll_loadHeuristic hnone hsecond
  refine ⟨fetchers, heuristics, hfetchers, hheuristics, hjobTypes, ?_, fun type => ?_, hheuristicsOf⟩
  · rw [hsameNames, hframe]
  · rw [hsameFetchers, hfetcherOf]
    rfl

end load

section supported

/-- What a context supports: the types for which a fetcher, a heuristic and a
job type were loaded, and no others. -/
structure SupportsConfigured (loader : ClassLoader δ) (toUpperCase : String → String)
    (fetchers : List fetcher.FetcherConfigurationData)
    (heuristics : List heuristic.HeuristicConfigurationData) (loaded : LoadedContext δ)
    (context : ElephantContext δ) : Prop where
  intersection : ∀ type, supportedTypes loaded type = true ↔
    loaded.typeToFetcher.containsKey type = true ∧ loaded.typeToHeuristics.containsKey type = true ∧
      loaded.appTypeToJobTypes.containsKey type = true
  keys : ∀ type, (context.typeToFetcher type).isSome = supportedTypes loaded type ∧
    (context.typeToHeuristics type).isSome = supportedTypes loaded type ∧
    (context.appTypeToJobTypes type).isSome = supportedTypes loaded type
  values : ∀ type, supportedTypes loaded type = true →
    context.typeToFetcher type = loaded.typeToFetcher.get? type ∧
    context.typeToHeuristics type = loaded.typeToHeuristics.get? type ∧
    context.appTypeToJobTypes type = loaded.appTypeToJobTypes.get? type
  fetchers : ∀ type, loaded.typeToFetcher.get? type = firstFetcher loader fetchers type
  heuristics : ∀ type, loaded.typeToHeuristics.get? type =
    listed (configuredHeuristics loader heuristics type)
  names : ∀ typeName type, context.getApplicationTypeForName typeName = some type ↔
    supportedTypes loaded type = true ∧ type.name = toUpperCase typeName
  jobs : ∀ lastTime byId rootNode jobs,
    AnalyticJobGeneratorHadoop2.readApps context lastTime byId rootNode = .ok jobs →
    ∀ job ∈ jobs, (∃ fetcher, context.typeToFetcher job.type = some fetcher) ∧
      (∃ heuristics, context.typeToHeuristics job.type = some heuristics ∧ heuristics ≠ []) ∧
      ∃ jobTypes, context.appTypeToJobTypes job.type = some jobTypes ∧ jobTypes ≠ []

/-- The keys that stay in a map that the view is made of are those of the view. -/
theorem PartOfView.isSome_retained {ν : Type} {field : MapField (LoadedContext δ) ApplicationType ν}
    (hpart : PartOfView field) (loaded : LoadedContext δ) (type : ApplicationType) :
    (((field.get loaded).filterKeys (supportedTypes loaded)).get? type).isSome = supportedTypes loaded type := by
  rw [OrderedMap.isSome_get?, OrderedMap.containsKey_filterKeys]
  cases htype : supportedTypes loaded type with
  | true => rw [hpart.within loaded type htype, Bool.and_self]
  | false => rw [Bool.and_false]

theorem get?_retained {ν : Type} (m : OrderedMap ApplicationType ν) {loaded : LoadedContext δ}
    {type : ApplicationType} (htype : supportedTypes loaded type = true) :
    (m.filterKeys (supportedTypes loaded)).get? type = m.get? type := by
  rw [OrderedMap.get?_filterKeys, if_pos htype]

/-- However the three maps overlap, the context supports the types that are
keys of all of them, and whatever job is read finds what it needs. -/
theorem loadConfiguration_supports {loader : ClassLoader δ} {platform : ContextPlatform}
    {orders : ContextOrders δ} {documents : Documents} {context : ElephantContext δ}
    (h : loadConfiguration loader platform orders documents = .ok context) :
    ∃ loaded fetchers heuristics,
      loadComponents loader platform orders documents = .ok loaded ∧
      fetcher.parseFetcherConfiguration platform.toUpperCase documents.fetchers = .ok fetchers ∧
      heuristic.parseHeuristicConfiguration platform.toUpperCase documents.heuristics = .ok heuristics ∧
      SupportsConfigured loader platform.toUpperCase fetchers heuristics loaded context := by
  simp only [loadConfiguration, bind_eq_ok_iff, pure_eq_ok_iff] at h
  obtain ⟨loaded, hloaded, rfl⟩ := h
  obtain ⟨fetchers, heuristics, hfetchers, hheuristics, hjobTypes, hnames, hfetcherOf, hheuristicsOf⟩ :=
    loadComponents_spec hloaded
  refine ⟨loaded, fetchers, heuristics, hloaded, hfetchers, hheuristics, ?_⟩
  obtain ⟨types, htypes, hconfigured⟩ := configureSupportedApplicationTypes_eq orders loaded
  rw [hconfigured]
  have hsupported : ∀ name type,
      (types.foldl (fun nameToType type => nameToType.put type.name type) loaded.nameToType).get? name =
        some type ↔ supportedTypes loaded type = true ∧ type.name = name := by
    intro name type
    rw [hnames, get?_foldl_name, htypes]
  refine ⟨fun type => by rw [supportedTypes, Bool.and_eq_true, Bool.and_eq_true, and_assoc],
    fun type => ⟨partOfView_fetchers.isSome_retained loaded type,
      partOfView_heuristics.isSome_retained loaded type, partOfView_jobTypes.isSome_retained loaded type⟩,
    fun type htype => ⟨get?_retained _ htype, get?_retained _ htype, get?_retained _ htype⟩,
    hfetcherOf, hheuristicsOf, fun typeName type => hsupported _ type, ?_⟩
  intro lastTime byId rootNode jobs hread job hjob
  have hregistered := AnalyticJobGeneratorHadoop2.forall_readElements
    (fun _ _ _ happ => AnalyticJobGeneratorHadoop2.readApp_type happ) hread
  obtain ⟨typeName, hname⟩ := hregistered job hjob
  have htype := ((hsupported _ _).mp hname).1
  obtain ⟨fetcher, hfetcher⟩ := Option.isSome_iff_exists.mp
    ((partOfView_fetchers.isSome_retained loaded job.type).trans htype)
  obtain ⟨jobHeuristics, hjobHeuristics⟩ := Option.isSome_iff_exists.mp
    ((partOfView_heuristics.isSome_retained loaded job.type).trans htype)
  obtain ⟨jobTypes, hjobTypesOf⟩ := Option.isSome_iff_exists.mp
    ((partOfView_jobTypes.isSome_retained loaded job.type).trans htype)
  refine ⟨⟨fetcher, hfetcher⟩, ⟨jobHeuristics, hjobHeuristics, ?_⟩, jobTypes, hjobTypesOf, ?_⟩
  · have hlisted : loaded.typeToHeuristics.get? job.type = some jobHeuristics :=
      (get?_retained _ htype).symm.trans hjobHeuristics
    rw [hheuristicsOf] at hlisted
    exact (listed_eq_some_iff.mp hlisted).2
  · have hlists : loaded.appTypeToJobTypes.get? job.type = some jobTypes :=
      (get?_retained _ htype).symm.trans hjobTypesOf
    obtain ⟨default, -, rfl⟩ := parseJobTypeConfiguration_spec hjobTypes hlists
    simp

/-- Classes that can all be loaded. -/
def allClasses : ClassLoader Unit where
  newFetcher _ := .ok fun _ => (.ok (some ()), none)
  newHeuristic _ := .ok fun _ => .ok none
  render viewName := .ok viewName

/-- A platform on which every pattern fits and names are upper case. -/
def upperCasePlatform : ContextPlatform where
  compile _ := some fun _ => true
  toUpperCase name := name

def insertionOrders : ContextOrders Unit := ⟨.insertion, .insertion, .insertion, .insertion⟩

/-- Two fetchers and a heuristic for mapreduce, and a fetcher for spark, of which
there is no heuristic. -/
def mapreduceOnly : Documents where
  fetchers :=
    [{ classname := some "MapReduceFetcherHadoop2", applicationtype := some "MAPREDUCE" },
      { classname := some "SparkFSFetcher", applicationtype := some "SPARK" },
      { classname := some "MapReduceFSFetcherHadoop2", applicationtype := some "MAPREDUCE" }]
  heuristics :=
    [{ classname := some "MapperTimeHeuristic", heuristicname := some "Mapper Time",
       viewname := some "views.html.help.mapreduce.helpMapperTime", applicationtype := some "MAPREDUCE" }]
  jobTypes :=
    [{ name := some "Hadoop", conf := some "mapreduce.job.name", applicationtype := some "MAPREDUCE",
       isDefault := true },
      { name := some "Spark", conf := some "spark.app.id", applicationtype := some "SPARK",
        isDefault := true }]

def mapreduceContext : ElephantContext Unit :=
  match loadConfiguration allClasses upperCasePlatform insertionOrders mapreduceOnly with
  | .ok context => context
  | .error _ => .single "" fun _ => (.ok none, none)

theorem loadConfiguration_supports_mapreduceOnly :
    ∃ loaded fetchers heuristics,
      loadComponents allClasses upperCasePlatform insertionOrders mapreduceOnly = .ok loaded ∧
      fetcher.parseFetcherConfiguration upperCasePlatform.toUpperCase mapreduceOnly.fetchers =
        .ok fetchers ∧
      heuristic.parseHeuristicConfiguration upperCasePlatform.toUpperCase mapreduceOnly.heuristics =
        .ok heuristics ∧
      SupportsConfigured allClasses upperCasePlatform.toUpperCase fetchers heuristics loaded
        mapreduceContext := by
  have hloads : loadConfiguration allClasses upperCasePlatform insertionOrders mapreduceOnly =
      .ok mapreduceContext := rfl
  exact loadConfiguration_supports hloads

end supported

end drelephant.analysis.LoadedContext
