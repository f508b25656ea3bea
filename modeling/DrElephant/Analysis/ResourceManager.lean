import Mathlib.Data.List.Forall2
import Mathlib.Data.List.Nodup
import DrElephant.Analysis.AnalyticJobGeneratorHadoop2

open jackson java.lang models

namespace drelephant.analysis

inductive FinalStatus
  | SUCCEEDED
  | FAILED
  | KILLED
  | UNDEFINED
  deriving DecidableEq, Repr

def FinalStatus.toText : FinalStatus → String
  | SUCCEEDED => "SUCCEEDED"
  | FAILED => "FAILED"
  | KILLED => "KILLED"
  | UNDEFINED => "UNDEFINED"

/-- What the resource manager knows of an application that has finished. -/
structure FinishedApp where
  id : String
  user : String
  name : String
  queue : String
  trackingUrl : Option String
  startedTime : Int
  finishedTime : Int
  applicationType : String
  finalStatus : FinalStatus
  finished : 0 < finishedTime
  deriving DecidableEq

namespace FinishedApp

/-- An element of an answer that reports an application, whatever other fields
it has. -/
structure ReportedBy (app : FinishedApp) (node : JsonNode) : Prop where
  id : (node.get? "id").map JsonNode.getValueAsText = some app.id
  user : (node.get? "user").map JsonNode.getValueAsText = some app.user
  name : (node.get? "name").map JsonNode.getValueAsText = some app.name
  queue : (node.get? "queue").map JsonNode.getValueAsText = some app.queue
  trackingUrl : (node.get? "trackingUrl").map JsonNode.getValueAsText = app.trackingUrl
  startedTime : (node.get? "startedTime").map JsonNode.getLongValue = some app.startedTime
  finishedTime : (node.get? "finishedTime").map JsonNode.getLongValue = some app.finishedTime
  applicationType :
    (node.get? "applicationType").map JsonNode.getValueAsText = some app.applicationType

variable {δ : Type}

/-- The job made from an application, if its type is supported. -/
def toJob (context : ElephantContext δ) (app : FinishedApp) : Option AnalyticJob :=
  (context.getApplicationTypeForName app.applicationType).map fun type =>
    { type
      appId := app.id
      name := app.name
      queueName := app.queue
      user := app.user
      trackingUrl := app.trackingUrl
      startTime := AnalyticJob.timestamp app.startedTime
      finishTime := AnalyticJob.timestamp app.finishedTime }

/-- A succeeded or failed application of a supported type, which the daemon
is there to analyse. -/
def Analysable (context : ElephantContext δ) (app : FinishedApp) : Prop :=
  (app.finalStatus = .SUCCEEDED ∨ app.finalStatus = .FAILED) ∧
    (context.getApplicationTypeForName app.applicationType).isSome

/-- The table does not hold the application back: the cursor has moved, or the
application is looked up and not found. -/
def Unseen (lastTime : Int) (byId : String → Except JavaException (Option AppResult))
    (app : FinishedApp) : Prop :=
  0 < lastTime ∨ lastTime = 0 ∧ byId app.id = .ok none

end FinishedApp

/-- The applications that finish at a resource manager, each with one final record. -/
structure ResourceManager where
  apps : Set FinishedApp
  unique : ∀ app ∈ apps, ∀ app' ∈ apps, app.id = app'.id → app = app'

/-- The answer lists exactly the applications of the queried status that
finished in the queried window, each once and with its final record. -/
def ResourceManager.Answers (rm : ResourceManager) (url : AppsUrl) (rootNode : JsonNode) : Prop :=
  ∃ apps : List FinishedApp, apps.Nodup ∧
    (∀ app, app ∈ apps ↔ app ∈ rm.apps ∧ app.finalStatus.toText = url.finalStatus ∧
      url.finishedTimeBegin ≤ app.finishedTime ∧ app.finishedTime ≤ url.finishedTimeEnd) ∧
    List.Forall₂ FinishedApp.ReportedBy apps
      (JsonNode.getElements (JsonNode.path (JsonNode.path (some rootNode) "apps") "app"))

section answer

/-- The record of an application as an element of an answer. -/
def FinishedApp.toNode (app : FinishedApp) : JsonNode :=
  .object ([("id", .text app.id), ("user", .text app.user), ("name", .text app.name),
    ("queue", .text app.queue), ("startedTime", .number app.startedTime),
    ("finishedTime", .number app.finishedTime), ("applicationType", .text app.applicationType)] ++
    app.trackingUrl.toList.map fun url => ("trackingUrl", .text url))

theorem FinishedApp.reportedBy_toNode (app : FinishedApp) : app.ReportedBy app.toNode := by
  constructor
  case trackingUrl =>
    cases h : app.trackingUrl <;> simp [toNode, JsonNode.get?, h, JsonNode.getValueAsText]
  all_goals simp [toNode, JsonNode.get?, JsonNode.getValueAsText, JsonNode.getLongValue]

/-- A resource manager at which finitely many applications finish. -/
def ResourceManager.ofList (apps : List FinishedApp) (hids : (apps.map FinishedApp.id).Nodup) :
    ResourceManager where
  apps := {app | app ∈ apps}
  unique _ happ _ happ' hid := List.inj_on_of_nodup_map hids happ happ' hid

/-- The applications that a query asks for. -/
def AppsUrl.select (url : AppsUrl) (apps : List FinishedApp) : List FinishedApp :=
  apps.filter fun app => app.finalStatus.toText = url.finalStatus ∧
    url.finishedTimeBegin ≤ app.finishedTime ∧ app.finishedTime ≤ url.finishedTimeEnd

def ResourceManager.answer (apps : List FinishedApp) (url : AppsUrl) : JsonNode :=
  .object [("apps", .object [("app", .array ((url.select apps).map FinishedApp.toNode))])]

theorem ResourceManager.answers_answer {apps : List FinishedApp}
    (hids : (apps.map FinishedApp.id).Nodup) (url : AppsUrl) :
    (ofList apps hids).Answers url (answer apps url) := by
  refine ⟨url.select apps, hids.of_map.filter _, ?_, ?_⟩
  · intro app
    rw [AppsUrl.select, List.mem_filter, decide_eq_true_eq]
    rfl
  · simp only [answer, JsonNode.path, JsonNode.get?, JsonNode.getElements, Option.bind_some,
      List.find?_cons, beq_self_eq_true, Option.map_some]
    exact List.forall₂_map_right_iff.mpr
      (List.forall₂_same.mpr fun app _ => app.reportedBy_toNode)

/-- One finished application, for examples. -/
def FinishedApp.wordCount : FinishedApp where
  id := "application_1443068695259_9143"
  user := "elephant"
  name := "word count"
  queue := "default"
  trackingUrl := none
  startedTime := 1
  finishedTime := 5
  applicationType := "MAPREDUCE"
  finalStatus := .SUCCEEDED
  finished := by decide

end answer

namespace AnalyticJobGeneratorHadoop2

variable {δ : Type}

private theorem getOrThrow_map {node : JsonNode} {field : String} {α : Type} {view : JsonNode → α}
    {value : α} (h : (node.get? field).map view = some value) :
    ∃ found, node.getOrThrow field = .ok found ∧ view found = value := by
  obtain ⟨found, hfound, hvalue⟩ := Option.map_eq_some_iff.mp h
  exact ⟨found, by simp [JsonNode.getOrThrow, hfound], hvalue⟩

/-- A reported application is read as the job made from it. -/
theorem readApp_reported (context : ElephantContext δ) {app : FinishedApp} {node : JsonNode}
    (h : app.ReportedBy node) : readApp context node app.id = .ok (app.toJob context) := by
  obtain ⟨user, huser, huserText⟩ := getOrThrow_map h.user
  obtain ⟨name, hname, hnameText⟩ := getOrThrow_map h.name
  obtain ⟨queue, hqueue, hqueueText⟩ := getOrThrow_map h.queue
  obtain ⟨started, hstarted, hstartedValue⟩ := getOrThrow_map h.startedTime
  obtain ⟨finished, hfinished, hfinishedValue⟩ := getOrThrow_map h.finishedTime
  obtain ⟨type, htype, htypeText⟩ := getOrThrow_map h.applicationType
  simp only [readApp, huser, hname, hqueue, hstarted, hfinished, htype, bind, Except.bind, pure,
    Except.pure, huserText, hnameText, hqueueText, hstartedValue, hfinishedValue, htypeText,
    h.trackingUrl, FinishedApp.toJob, AnalyticJob.setStartTime, AnalyticJob.setFinishTime]

theorem isNew_eq_ok {lastTime : Int} {byId : String → Except JavaException (Option AppResult)}
    {app : FinishedApp} {new : Bool} (h : isNew lastTime byId app.id = .ok new) :
    new = true ↔ app.Unseen lastTime byId := by
  unfold isNew at h
  split at h
  · rename_i hpos
    cases h
    simp [FinishedApp.Unseen, hpos]
  · rename_i hpos
    split at h
    · rename_i hzero
      obtain ⟨row, hrow, hnone⟩ := bind_eq_ok_iff.mp h
      obtain rfl := pure_eq_ok_iff.mp hnone
      cases row <;> simp [FinishedApp.Unseen, hzero, hrow]
    · rename_i hzero
      cases h
      simp [FinishedApp.Unseen, hpos, hzero]

/-- One round of the loop over reported applications. -/
theorem readElements_cons {context : ElephantContext δ} {lastTime : Int}
    {byId : String → Except JavaException (Option AppResult)} {app : FinishedApp} {node : JsonNode}
    (happ : app.ReportedBy node) {nodes : List JsonNode} {jobs : List AnalyticJob}
    (hread : readElements context lastTime byId (node :: nodes) = .ok jobs) :
    ∃ new job rest, isNew lastTime byId app.id = .ok new ∧
      (bif new then readApp context node app.id else .ok none) = .ok job ∧
      readElements context lastTime byId nodes = .ok rest ∧ job.toList ++ rest = jobs := by
  obtain ⟨id, hid, hidText⟩ := getOrThrow_map happ.id
  simp only [readElements, hid, hidText, bind_eq_ok_iff, Except.ok.injEq, exists_eq_left',
    pure_eq_ok_iff] at hread
  obtain ⟨new, hnew, job, hjob, rest, hrest, hjobs⟩ := hread
  exact ⟨new, job, rest, hnew, hjob, hrest, hjobs⟩

open Classical in
/-- Reading a list of reported applications makes the jobs of the unseen ones,
in order. -/
theorem readElements_reported {context : ElephantContext δ} {lastTime : Int}
    {byId : String → Except JavaException (Option AppResult)} {apps : List FinishedApp}
    {nodes : List JsonNode} (hreported : List.Forall₂ FinishedApp.ReportedBy apps nodes)
    {jobs : List AnalyticJob} (hread : readElements context lastTime byId nodes = .ok jobs) :
    jobs = (apps.filter fun app => app.Unseen lastTime byId).filterMap (·.toJob context) := by
  induction hreported generalizing jobs with
  | nil =>
    simp only [readElements, Except.ok.injEq] at hread
    exact hread.symm
  | @cons app node apps nodes happ _ ih =>
    obtain ⟨new, job, rest, hnew, hjob, hrest, rfl⟩ := readElements_cons happ hread
    rw [ih hrest]
    by_cases hunseen : app.Unseen lastTime byId
    · rw [(isNew_eq_ok hnew).mpr hunseen, cond_true, readApp_reported context happ] at hjob
      cases hjob
      rw [List.filter_cons_of_pos (by simpa using hunseen), List.filterMap_cons]
      cases app.toJob context <;> rfl
    · have hfalse : new = false := Bool.eq_false_iff.mpr fun h => hunseen ((isNew_eq_ok hnew).mp h)
      rw [hfalse, cond_false] at hjob
      cases hjob
      rw [List.filter_cons_of_neg (by simpa using hunseen)]
      rfl

/-- A first read that returned has looked up every application it was told of. -/
theorem readElements_looks {context : ElephantContext δ}
    {byId : String → Except JavaException (Option AppResult)} {apps : List FinishedApp}
    {nodes : List JsonNode} (hreported : List.Forall₂ FinishedApp.ReportedBy apps nodes)
    {jobs : List AnalyticJob} (hread : readElements context 0 byId nodes = .ok jobs) :
    ∀ app ∈ apps, ∃ row, byId app.id = .ok row := by
  induction hreported generalizing jobs with
  | nil => simp
  | @cons app node apps nodes happ _ ih =>
    obtain ⟨new, -, rest, hnew, -, hrest, -⟩ := readElements_cons happ hread
    obtain ⟨row, hrow, -⟩ := bind_eq_ok_iff.mp (show (byId app.id >>= _) = .ok new from hnew)
    exact List.forall_mem_cons.mpr ⟨⟨row, hrow⟩, ih hrest⟩

end AnalyticJobGeneratorHadoop2

namespace ResourceManager

variable {δ : Type} {context : ElephantContext δ} {rm : ResourceManager}

/-- Jobs that stand, one for each, for the applications of a supported type
that satisfy a predicate. -/
def Lists (rm : ResourceManager) (context : ElephantContext δ) (jobs : List AnalyticJob)
    (p : FinishedApp → Prop) : Prop :=
  ∃ apps : List FinishedApp, apps.Nodup ∧
    (∀ app, app ∈ apps ↔
      app ∈ rm.apps ∧ p app ∧ (context.getApplicationTypeForName app.applicationType).isSome) ∧
    jobs.map AnalyticJob.appId = apps.map FinishedApp.id

theorem Lists.nodup {jobs : List AnalyticJob} {p : FinishedApp → Prop}
    (h : rm.Lists context jobs p) : (jobs.map AnalyticJob.appId).Nodup := by
  obtain ⟨apps, hnodup, happs, hids⟩ := h
  rw [hids]
  exact hnodup.map_on fun app happ app' happ' =>
    rm.unique app ((happs app).mp happ).1 app' ((happs app').mp happ').1

theorem Lists.mem_iff {jobs : List AnalyticJob} {p : FinishedApp → Prop}
    (h : rm.Lists context jobs p) {app : FinishedApp} (happ : app ∈ rm.apps) :
    app.id ∈ jobs.map AnalyticJob.appId ↔
      p app ∧ (context.getApplicationTypeForName app.applicationType).isSome := by
  obtain ⟨apps, _, happs, hids⟩ := h
  rw [hids, List.mem_map]
  constructor
  · rintro ⟨app', happ', hid⟩
    obtain ⟨hmem, hp⟩ := (happs app').mp happ'
    rwa [← rm.unique app' hmem app happ hid]
  · exact fun hp => ⟨app, (happs app).mpr ⟨happ, hp⟩, rfl⟩

theorem Lists.exists_app {jobs : List AnalyticJob} {p : FinishedApp → Prop}
    (h : rm.Lists context jobs p) {id : String} (hid : id ∈ jobs.map AnalyticJob.appId) :
    ∃ app ∈ rm.apps, app.id = id ∧ p app ∧
      (context.getApplicationTypeForName app.applicationType).isSome := by
  obtain ⟨apps, _, happs, hids⟩ := h
  rw [hids, List.mem_map] at hid
  obtain ⟨app, happ, rfl⟩ := hid
  obtain ⟨hmem, hp⟩ := (happs app).mp happ
  exact ⟨app, hmem, rfl, hp⟩

theorem Lists.congr {jobs : List AnalyticJob} {p q : FinishedApp → Prop}
    (h : rm.Lists context jobs p) (hq : ∀ app ∈ rm.apps, q app ↔ p app) :
    rm.Lists context jobs q := by
  obtain ⟨apps, hnodup, happs, hids⟩ := h
  refine ⟨apps, hnodup, fun app => ?_, hids⟩
  rw [happs]
  exact and_congr_right fun happ => and_congr_left' (hq app happ).symm

/-- Two lists of jobs of different applications, one behind the other. -/
theorem Lists.append {jobs jobs' : List AnalyticJob} {p p' : FinishedApp → Prop}
    (h : rm.Lists context jobs p) (h' : rm.Lists context jobs' p')
    (hdisjoint : ∀ app, p app → ¬ p' app) :
    rm.Lists context (jobs ++ jobs') fun app => p app ∨ p' app := by
  obtain ⟨apps, hnodup, happs, hids⟩ := h
  obtain ⟨apps', hnodup', happs', hids'⟩ := h'
  refine ⟨apps ++ apps', ?_, ?_, by simp [hids, hids']⟩
  · refine List.nodup_append.mpr ⟨hnodup, hnodup', ?_⟩
    rintro app happ _ happ' rfl
    exact hdisjoint app ((happs app).mp happ).2.1 ((happs' app).mp happ').2.1
  · intro app
    rw [List.mem_append, happs, happs', or_and_right, and_or_left]

/-- Jobs for no application. -/
theorem Lists.eq_nil {jobs : List AnalyticJob} {p : FinishedApp → Prop}
    (h : rm.Lists context jobs p) (hp : ∀ app ∈ rm.apps, ¬ p app) : jobs = [] := by
  obtain ⟨apps, -, happs, hids⟩ := h
  have hnone : apps = [] := by
    apply List.eq_nil_iff_forall_not_mem.mpr
    intro app happ
    obtain ⟨hmem, hp', -⟩ := (happs app).mp happ
    exact hp app hmem hp'
  simpa [hnone] using hids

private theorem map_appId_filterMap_toJob (apps : List FinishedApp) :
    (apps.filterMap (·.toJob context)).map AnalyticJob.appId =
      (apps.filter fun app =>
        (context.getApplicationTypeForName app.applicationType).isSome).map FinishedApp.id := by
  induction apps with
  | nil => rfl
  | cons app apps ih =>
    rw [List.filterMap_cons, FinishedApp.toJob]
    cases htype : context.getApplicationTypeForName app.applicationType with
    | none => simp [htype, ih]
    | some type => simp [htype, ih]

/-- An exact answer is read as the jobs of the unseen applications of a
supported type that it lists. -/
theorem readApps_lists {lastTime : Int} {byId : String → Except JavaException (Option AppResult)}
    {url : AppsUrl} {rootNode : JsonNode} {jobs : List AnalyticJob}
    (hanswer : rm.Answers url rootNode)
    (hread : AnalyticJobGeneratorHadoop2.readApps context lastTime byId rootNode = .ok jobs) :
    rm.Lists context jobs fun app => app.finalStatus.toText = url.finalStatus ∧
      url.finishedTimeBegin ≤ app.finishedTime ∧ app.finishedTime ≤ url.finishedTimeEnd ∧
      app.Unseen lastTime byId := by
  classical
  obtain ⟨apps, hnodup, happs, hreported⟩ := hanswer
  obtain rfl := AnalyticJobGeneratorHadoop2.readElements_reported hreported hread
  refine ⟨_, (hnodup.filter _).filter _, ?_, map_appId_filterMap_toJob _⟩
  intro app
  simp only [List.mem_filter, happs, decide_eq_true_eq, and_assoc]

/-- The same in terms of the table that the lookups were made in. -/
theorem readApps_lists_table {lastTime : Int}
    {byId : String → Except JavaException (Option AppResult)} {table : List AppResult}
    (hlooks : ∀ appId row, byId appId = .ok row → row = AppResult.byId table appId)
    {url : AppsUrl} {rootNode : JsonNode} {jobs : List AnalyticJob}
    (hanswer : rm.Answers url rootNode)
    (hread : AnalyticJobGeneratorHadoop2.readApps context lastTime byId rootNode = .ok jobs) :
    rm.Lists context jobs fun app => app.finalStatus.toText = url.finalStatus ∧
      url.finishedTimeBegin ≤ app.finishedTime ∧ app.finishedTime ≤ url.finishedTimeEnd ∧
      (0 < lastTime ∨ lastTime = 0 ∧ some app.id ∉ table.map AppResult.id) := by
  refine (readApps_lists hanswer hread).congr fun app happ => ?_
  refine and_congr_right fun hstatus => and_congr_right fun hbegin => and_congr_right fun hend => ?_
  refine or_congr_right (and_congr_right fun hzero => ?_)
  obtain ⟨apps, -, happs, hreported⟩ := hanswer
  subst hzero
  obtain ⟨row, hrow⟩ := AnalyticJobGeneratorHadoop2.readElements_looks hreported hread app
    ((happs app).mpr ⟨happ, hstatus, hbegin, hend⟩)
  rw [hrow, ← AppResult.byId_eq_none_iff, ← hlooks app.id row hrow, Except.ok.injEq]

/-- The applications a fetch has to analyse: those of its window, except the
ones that the table holds back. -/
def InWindow (lastTime currentTime : Int)
    (byId : String → Except JavaException (Option AppResult)) (app : FinishedApp) : Prop :=
  (app.finalStatus = .SUCCEEDED ∨ app.finalStatus = .FAILED) ∧
    lastTime < app.finishedTime ∧ app.finishedTime ≤ currentTime ∧ app.Unseen lastTime byId

/-- Succeeded and failed applications are read by a query each. -/
theorem lists_window {generator : AnalyticJobGeneratorHadoop2}
    {byId : String → Except JavaException (Option AppResult)} {rootNode : JsonNode}
    {succeededApps failedApps : List AnalyticJob}
    (hsucceeded : rm.Lists context succeededApps fun app =>
      app.finalStatus = .SUCCEEDED ∧ generator.lastTime < app.finishedTime ∧
        app.finishedTime ≤ generator.currentTime ∧ app.Unseen generator.lastTime byId)
    (hanswer : rm.Answers (generator.appsUrl "FAILED") rootNode)
    (hread : AnalyticJobGeneratorHadoop2.readApps context generator.lastTime byId rootNode =
      .ok failedApps) :
    rm.Lists context (succeededApps ++ failedApps)
      (InWindow generator.lastTime generator.currentTime byId) := by
  refine (hsucceeded.append (readApps_lists hanswer hread) ?_).congr ?_
  · rintro app ⟨hstatus, -⟩ ⟨hstatus', -⟩
    have hfailed : FinalStatus.toText .SUCCEEDED = "FAILED" := hstatus ▸ hstatus'
    exact absurd hfailed (by decide)
  · intro app _
    have hfailed : app.finalStatus.toText = "FAILED" ↔ app.finalStatus = .FAILED := by
      cases app.finalStatus <;> decide
    simp only [InWindow, AnalyticJobGeneratorHadoop2.appsUrl, hfailed, Int.add_one_le_iff]
    exact or_and_right

private theorem succeeded_iff {status : FinalStatus} :
    status.toText = "SUCCEEDED" ↔ status = .SUCCEEDED := by
  cases status <;> decide

/-- A fetch reads the jobs of its window. -/
theorem readWindow_lists {env : AnalyticJobGeneratorHadoop2.FetchEnvironment}
    {generator : AnalyticJobGeneratorHadoop2} {jobs : List AnalyticJob}
    (hanswers : ∀ url node, env.readJsonNode url = .ok node → rm.Answers url node)
    (hread : AnalyticJobGeneratorHadoop2.readWindow context env generator = .ok jobs) :
    rm.Lists context jobs (InWindow generator.lastTime generator.currentTime env.byId) := by
  simp only [AnalyticJobGeneratorHadoop2.readWindow, bind_eq_ok_iff, pure_eq_ok_iff] at hread
  obtain ⟨node, hnode, succeededApps, hsucceeded, node', hnode', failedApps, hfailed, rfl⟩ := hread
  refine lists_window ?_ (hanswers _ _ hnode') hfailed
  simpa only [AnalyticJobGeneratorHadoop2.appsUrl, succeeded_iff, Int.add_one_le_iff] using
    readApps_lists (hanswers _ _ hnode) hsucceeded

end ResourceManager

end drelephant.analysis
