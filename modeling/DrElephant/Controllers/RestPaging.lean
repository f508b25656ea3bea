import DrElephant.Controllers.RestSearch
import DrElephant.Library.Paging
import DrElephant.Util.Utils

open drelephant.util java.lang machine models paging

namespace controllers

/-- The parameters of a search, null where the form has none. -/
structure SearchParams where
  username : Option String := none
  queuename : Option String := none
  severity : Option String := none
  jobType : Option String := none
  analysis : Option String := none
  finishedTimeBegin : Option String := none
  finishedTimeEnd : Option String := none
  startedTimeBegin : Option String := none
  startedTimeEnd : Option String := none

def getSearchParams (toLowerCase : String → String) (form : SearchParams) : SearchParams :=
  { form with
    username := form.username.map fun username => toLowerCase (trim username)
    queuename := form.queuename.map fun queuename => toLowerCase (trim queuename) }

inductive Comparison
  | eq
  | ge
  | le
  deriving DecidableEq, Repr

inductive Operand
  | text (value : String)
  | time (value : Int)
  deriving DecidableEq, Repr

/-- A comparison of a property of the rows. -/
structure Expression where
  property : String
  comparison : Comparison
  operand : Operand
  deriving DecidableEq, Repr

inductive TimeColumn
  | START_TIME
  | FINISH_TIME
  deriving DecidableEq, Repr

def TimeColumn.key : TimeColumn → AppResult → Int
  | START_TIME => AppResult.startTime
  | FINISH_TIME => AppResult.finishTime

/-- A query for the rows that meet all expressions, latest first by one of the times. -/
structure SearchQuery where
  select : String
  expressions : List Expression
  desc : TimeColumn
  deriving DecidableEq, Repr

/-- A time that does not parse is 0. -/
def parseTime (digit : Char → Option Nat) (time : String) : Int := (parseLong digit time).getD 0

/-- The expressions that a parameter adds if it is set. -/
def ifSet (parameter : Option String) (expressions : String → List Expression) : List Expression :=
  match parameter with
  | some value => if Utils.isSet (some value) then expressions value else []
  | none => []

def timeExpression (digit : Char → Option Nat) (property : String) (comparison : Comparison)
    (parameter : Option String) : List Expression :=
  ifSet parameter fun value =>
    let time := parseTime digit value
    if time > 0 then [⟨property, comparison, .time time⟩] else []

/-- Build SQL predicates for a search query, all rows if there are no parameters. -/
def generateSearchQuery (digit : Char → Option Nat) (selectParams : String)
    (searchParams : Option SearchParams) : SearchQuery :=
  match searchParams with
  | none => ⟨selectParams, [], .FINISH_TIME⟩
  | some params =>
    { select := selectParams
      expressions :=
        ifSet params.username (fun username => [⟨"username", .eq, .text username⟩]) ++
        ifSet params.queuename (fun queuename => [⟨"queueName", .eq, .text queuename⟩]) ++
        ifSet params.jobType (fun jobType => [⟨"jobType", .eq, .text jobType⟩]) ++
        ifSet params.severity (fun severity =>
          match params.analysis with
          | some analysis =>
            if Utils.isSet (some analysis) then
              [⟨"yarnAppHeuristicResults.heuristicName", .eq, .text analysis⟩,
                ⟨"yarnAppHeuristicResults.severity", .ge, .text severity⟩]
            else [⟨"severity", .ge, .text severity⟩]
          | none => [⟨"severity", .ge, .text severity⟩]) ++
        -- Both the startedTimeBegin and startedTimeEnd are inclusive in the filter.
        timeExpression digit "startTime" .ge params.startedTimeBegin ++
        timeExpression digit "startTime" .le params.startedTimeEnd ++
        timeExpression digit "finishTime" .ge params.finishedTimeBegin ++
        timeExpression digit "finishTime" .le params.finishedTimeEnd
      -- If queried by start time then sort the results by start time.
      desc :=
        if Utils.isSet params.startedTimeBegin || Utils.isSet params.startedTimeEnd then .START_TIME
        else .FINISH_TIME }

/-- The query of a REST search. -/
def restQuery (digit : Char → Option Nat) (toLowerCase : String → String) (form : SearchParams) :
    SearchQuery :=
  generateSearchQuery digit "*" (some (getSearchParams toLowerCase form))

/-- A table that does not change, and the rows that the database finds to meet
expressions. -/
structure SearchDatabase where
  table : List AppResult
  primaryKey : (table.map AppResult.id).Nodup
  holds : List Expression → AppResult → Bool

def SearchDatabase.matching (database : SearchDatabase) (query : SearchQuery) : List AppResult :=
  database.table.filter (database.holds query.expressions)

/-- Every answer is a slice of an ordering of the matching rows that is
consistent with the ORDER BY clause, not always the same one. -/
def SearchDatabase.Answers (database : SearchDatabase) (query : SearchQuery)
    (findList : Int → Int → List AppResult) : Prop :=
  ∀ firstRow maxRows, ∃ ordering, OrderedBy query.desc.key (database.matching query) ordering ∧
    findList firstRow maxRows = fetchWindow ordering firstRow maxRows

/-- The form that asks for a page. -/
def SearchForm.atPage (form : SearchForm) (page : Nat) : SearchForm :=
  { form with page := some (toString page) }

/-- The pages up to the first that is not found have every row once. -/
def ListsEveryRowOnce (digit : Char → Option Nat) (find : SearchFinder) (form : SearchForm)
    (rows : List AppResult) : Prop :=
  ∃ pages : List (List AppResult),
    (∀ page (hpage : page < pages.length),
      restSearch digit find (form.atPage (page + 1)) = .ok (.ok (.many pages[page]))) ∧
    restSearch digit find (form.atPage (pages.length + 1)) = .ok (.notFound "No records") ∧
    pages.flatten.Perm rows

section paging

variable {digit : Char → Option Nat} {database : SearchDatabase} {query : SearchQuery} {find : SearchFinder}
  {form : SearchForm}

theorem nodup_matching (database : SearchDatabase) (query : SearchQuery) : (database.matching query).Nodup :=
  (database.primaryKey.of_map _).filter _

/-- A page by its number. -/
theorem restSearch_atPage (hdigit : DecimalDigits digit) (hblank : form.Blank) (find : SearchFinder)
    {page : Nat} (hpage : page < 2147483647) :
    restSearch digit find (form.atPage (page + 1)) =
      .ok (records (find.findList (wrap32 (page * 100)) 100) "No records") := by
  have hblank' : (form.atPage (page + 1)).Blank := ⟨hblank.appId, hblank.flowExecId⟩
  have hparse := parseInt_toString hdigit (show page + 1 ≤ 2147483647 by omega)
  have hnumber : restPage digit (form.atPage (page + 1)).page = .ok ((page : Int) + 1) := by
    simp only [restPage, SearchForm.atPage, hparse]
    rw [if_neg (by omega)]
    rfl
  rw [restSearch_blank hblank', restFirstRow, hnumber]
  simp only [bind, Except.bind, pure, Except.pure, Except.map, add_sub_cancel_right, REST_PAGE_LENGTH]

/-- The last number of rows whose pages all have a first row that is an int, the
empty one behind them included. -/
def MAX_REST_ROWS : Nat := 2147483600

/-- The rows of an answer about a page whose first row is an int. -/
private theorem findList_page {ordering : List AppResult} {page : Nat} (hpage : 100 * page ≤ MAX_REST_ROWS) :
    fetchWindow ordering (wrap32 (page * 100)) 100 = (ordering.drop (100 * page)).take 100 := by
  rw [MAX_REST_ROWS] at hpage
  rw [wrap32_eq_self (by omega) (by omega), fetchWindow, show ((page : Int) * 100).toNat = 100 * page by omega]
  rfl

private theorem slice_eq_nil_iff {ordering rows : List AppResult}
    (hordering : OrderedBy query.desc.key rows ordering) {page : Nat} :
    (ordering.drop (100 * page)).take 100 = [] ↔ rows.length ≤ 100 * page := by
  rw [← hordering.length_eq, ← List.length_eq_zero_iff, List.length_take, List.length_drop]
  omega

private theorem records_eq_many_iff {results results' : List AppResult} {message : String} :
    records results message = .ok (.many results') ↔ results = results' ∧ results ≠ [] := by
  cases results <;> simp [records]

private theorem records_eq_notFound_iff {results : List AppResult} {message : String} :
    records results message = .notFound message ↔ results = [] := by
  cases results <;> simp [records]

private theorem restSearch_atPage_many_iff (hdigit : DecimalDigits digit) (hblank : form.Blank)
    (find : SearchFinder) {page : Nat} (hpage : page < 2147483647) {results : List AppResult} :
    restSearch digit find (form.atPage (page + 1)) = .ok (.ok (.many results)) ↔
      find.findList (wrap32 (page * 100)) 100 = results ∧ find.findList (wrap32 (page * 100)) 100 ≠ [] := by
  rw [restSearch_atPage hdigit hblank find hpage, Except.ok.injEq, records_eq_many_iff]

/-- The pages behind the rows are not found. -/
private theorem restSearch_atPage_notFound_iff (hdigit : DecimalDigits digit) (hblank : form.Blank)
    (hanswers : database.Answers query find.findList) {page : Nat} (hpage : 100 * page ≤ MAX_REST_ROWS) :
    restSearch digit find (form.atPage (page + 1)) = .ok (.notFound "No records") ↔
      (database.matching query).length ≤ 100 * page := by
  obtain ⟨ordering, hordering, hfind⟩ := hanswers (wrap32 (page * 100)) 100
  have hnumber : page < 2147483647 := by
    rw [MAX_REST_ROWS] at hpage
    omega
  rw [restSearch_atPage hdigit hblank find hnumber, hfind, findList_page hpage, Except.ok.injEq,
    records_eq_notFound_iff, slice_eq_nil_iff hordering]

/-- Pages that are slices of orderings of their own have every row once when no
page boundary is among rows of the same time. -/
theorem listsEveryRowOnce_of_boundary (hdigit : DecimalDigits digit) (hblank : form.Blank)
    (hanswers : database.Answers query find.findList)
    (hlength : (database.matching query).length ≤ MAX_REST_ROWS)
    (hboundary : ∀ k, 1 ≤ k → 100 * k < (database.matching query).length →
      Boundary query.desc.key (database.matching query) (100 * k)) :
    ListsEveryRowOnce digit find form (database.matching query) := by
  choose ordering hordering hfind using fun page : Nat => hanswers (wrap32 (page * 100)) 100
  obtain ⟨n, hn⟩ : ∃ n, n = ((database.matching query).length + 99) / 100 := ⟨_, rfl⟩
  have hfirst : ∀ page ≤ n, 100 * page ≤ MAX_REST_ROWS := by
    intro page hpage
    rw [MAX_REST_ROWS] at hlength ⊢
    omega
  have hmany := hfirst n le_rfl
  rw [MAX_REST_ROWS] at hmany
  refine ⟨(List.range n).map fun page => ((ordering page).drop (100 * page)).take 100, ?_, ?_, ?_⟩
  · intro page hlt
    rw [List.length_map, List.length_range] at hlt
    rw [restSearch_atPage_many_iff hdigit hblank find (by omega), hfind, findList_page (hfirst page hlt.le)]
    refine ⟨by simp, fun hnil => ?_⟩
    rw [slice_eq_nil_iff (hordering page)] at hnil
    omega
  · rw [List.length_map, List.length_range, restSearch_atPage_notFound_iff hdigit hblank hanswers (hfirst n le_rfl)]
    omega
  · have hslices := (hordering 0).perm_flatMap_slices hordering hboundary n
    rw [List.take_of_length_le (by rw [(hordering 0).length_eq]; omega)] at hslices
    rw [← List.flatMap_def]
    exact hslices.trans (hordering 0).perm

/-- A row that two queries have shown is on two pages. -/
private theorem not_nodup_flatten_of_mem (hdigit : DecimalDigits digit) (hblank : form.Blank)
    {pages : List (List AppResult)} (hpages : ∀ page (hpage : page < pages.length),
      restSearch digit find (form.atPage (page + 1)) = .ok (.ok (.many pages[page])))
    {i j : Nat} (hij : i < j) (hj : j < pages.length) (hnumber : j < 2147483647) {row : AppResult}
    (hi : row ∈ find.findList (wrap32 (i * 100)) 100) (hj' : row ∈ find.findList (wrap32 (j * 100)) 100) :
    ¬ pages.flatten.Nodup := by
  have hfirst := hpages i (hij.trans hj)
  have hagain := hpages j hj
  rw [restSearch_atPage_many_iff hdigit hblank find (by omega)] at hfirst hagain
  exact not_nodup_flatten hij hj (hfirst.1 ▸ hi) (hagain.1 ▸ hj')

/-- Queries that are answered from the orderings picked for their first rows. -/
def pickingFinder (ordering : Int → List AppResult) : SearchFinder where
  findUnique _ := none
  findByFlowExecId _ := []
  findList firstRow maxRows := fetchWindow (ordering firstRow) firstRow maxRows

theorem answers_pickingFinder {ordering : Int → List AppResult}
    (hordering : ∀ firstRow, OrderedBy query.desc.key (database.matching query) (ordering firstRow)) :
    database.Answers query (pickingFinder ordering).findList :=
  fun firstRow _ => ⟨ordering firstRow, hordering firstRow, rfl⟩

/-- Behind the last page whose first row is an int the first rows come again. -/
theorem length_le_of_listsEveryRowOnce (hdigit : DecimalDigits digit) (hblank : form.Blank)
    {ordering : List AppResult} (hordering : OrderedBy query.desc.key (database.matching query) ordering)
    (hlists : ListsEveryRowOnce digit (pickingFinder fun _ => ordering) form (database.matching query)) :
    (database.matching query).length ≤ MAX_REST_ROWS := by
  obtain ⟨pages, hpages, hend, hperm⟩ := hlists
  by_contra hlong
  have hsize := hordering.length_eq
  obtain ⟨row, hrow⟩ : ∃ row, row ∈ ordering.take 100 := by
    refine List.exists_mem_of_length_pos ?_
    rw [List.length_take]
    omega
  have hwindow : (pickingFinder fun _ => ordering).findList (wrap32 ((0 : Nat) * 100)) 100 =
      ordering.take 100 := rfl
  have hwrapped : (pickingFinder fun _ => ordering).findList (wrap32 ((21474837 : Nat) * 100)) 100 =
      ordering.take 100 := rfl
  rcases lt_trichotomy pages.length 21474837 with hfew | heq | hmany
  · have hfirst : 100 * pages.length ≤ MAX_REST_ROWS := by
      rw [MAX_REST_ROWS]
      omega
    rw [restSearch_atPage_notFound_iff hdigit hblank (answers_pickingFinder fun _ => hordering) hfirst] at hend
    omega
  · rw [heq, restSearch_atPage hdigit hblank _ (by omega), hwrapped, Except.ok.injEq,
      records_eq_notFound_iff] at hend
    exact List.ne_nil_of_mem hrow hend
  · exact not_nodup_flatten_of_mem hdigit hblank hpages (by omega : 0 < 21474837) hmany (by omega)
      (hwindow ▸ hrow) (hwrapped ▸ hrow) (hperm.nodup_iff.mpr (nodup_matching database query))

/-- Rows of the same time that change places across a page boundary come up
twice. -/
theorem boundary_of_listsEveryRowOnce (hdigit : DecimalDigits digit) (hblank : form.Blank)
    (hlength : (database.matching query).length ≤ MAX_REST_ROWS)
    (hlists : ∀ find : SearchFinder, database.Answers query find.findList →
      ListsEveryRowOnce digit find form (database.matching query))
    {k : Nat} (hk : 1 ≤ k) (hlt : 100 * k < (database.matching query).length) :
    Boundary query.desc.key (database.matching query) (100 * k) := by
  obtain ⟨ordering, hordering⟩ := exists_orderedBy query.desc.key (database.matching query)
  have hsize := hordering.length_eq
  by_contra hboundary
  -- The rows on both sides of the boundary, which change places for the next page.
  obtain ⟨before, a, b, after, rfl, hbefore⟩ := exists_split
    (show 100 * k - 1 + 1 < ordering.length by omega)
  have hswapped := hordering.swap (by rwa [hbefore, show 100 * k - 1 + 1 = 100 * k by omega])
  have hanswers : database.Answers query (pickingFinder fun firstRow => if firstRow = wrap32 (k * 100) then
      before ++ b :: a :: after else before ++ a :: b :: after).findList := by
    refine answers_pickingFinder fun firstRow => ?_
    split
    · exact hswapped
    · exact hordering
  obtain ⟨pages, hpages, hend, hperm⟩ := hlists _ hanswers
  have hmax := hlength
  rw [MAX_REST_ROWS] at hmax
  have hmany : k < pages.length := by
    by_contra hfew
    rw [restSearch_atPage_notFound_iff hdigit hblank hanswers (by omega)] at hend
    omega
  refine not_nodup_flatten_of_mem hdigit hblank hpages (show k - 1 < k by omega) hmany (by omega)
    (show a ∈ _ from ?_) ?_ (hperm.nodup_iff.mpr (nodup_matching database query))
  · have hother : wrap32 ((k - 1 : Nat) * 100) ≠ wrap32 (k * 100) := by
      rw [wrap32_eq_self (by omega) (by omega), wrap32_eq_self (by omega) (by omega)]
      omega
    simp only [pickingFinder, if_neg hother]
    rw [findList_page (by omega)]
    refine mem_slice 99 (by decide) ?_
    rw [show 100 * (k - 1) + 99 = before.length by omega]
    simp
  · simp only [pickingFinder, if_true]
    rw [findList_page (by omega)]
    refine mem_slice 0 (by decide) ?_
    rw [show 100 * k + 0 = before.length + 1 by omega]
    simp

/-- Browsing has every matching row once, whatever the order of rows of the same
time, when no page boundary is among such rows and the offsets are ints. -/
theorem listsEveryRowOnce_iff (hdigit : DecimalDigits digit) (toLowerCase : String → String)
    (params : SearchParams) (database : SearchDatabase) (hblank : form.Blank) :
    let query := restQuery digit toLowerCase params
    let rows := database.matching query
    (∀ find : SearchFinder, database.Answers query find.findList → ListsEveryRowOnce digit find form rows) ↔
      rows.length ≤ MAX_REST_ROWS ∧
        ∀ k, 1 ≤ k → 100 * k < rows.length → Boundary query.desc.key rows (100 * k) := by
  intro query rows
  constructor
  · intro hlists
    obtain ⟨ordering, hordering⟩ := exists_orderedBy query.desc.key rows
    have hlength := length_le_of_listsEveryRowOnce hdigit hblank hordering
      (hlists _ (answers_pickingFinder fun _ => hordering))
    exact ⟨hlength, fun k hk hlt => boundary_of_listsEveryRowOnce hdigit hblank hlength hlists hk hlt⟩
  · rintro ⟨hlength, hboundary⟩ find hanswers
    exact listsEveryRowOnce_of_boundary hdigit hblank hanswers hlength hboundary

section examples

/-- Rows with the given finish times, all of which match. -/
def timedRows (time : Nat → Int) (n : Nat) : SearchDatabase where
  table := (List.range n).map fun i => .row (toString i) "job" "exec" (time i)
  primaryKey := by
    rw [List.map_map]
    refine List.Nodup.map (fun i j hij => ?_) List.nodup_range
    have hvalue := congrArg (fun text : String => Nat.ofDigitChars 10 text.toList 0) (Option.some.inj hij)
    simpa [Nat.toList_repr] using hvalue
  holds := fun _ _ => true

theorem decimalDigits_decimalDigit : DecimalDigits decimalDigit := fun _ hc => if_pos hc

private theorem matching_timedRows (time : Nat → Int) (n : Nat) (query : SearchQuery) :
    (timedRows time n).matching query =
      (List.range n).map fun i => .row (toString i) "job" "exec" (time i) :=
  List.filter_eq_self.mpr fun _ _ => rfl

private theorem countP_timedRows (time : Nat → Int) (n : Nat) (bound : Int) :
    ((List.range n).map fun i => AppResult.row (toString i) "job" "exec" (time i)).countP
      (fun row => bound ≤ TimeColumn.FINISH_TIME.key row) = (List.range n).countP fun i => bound ≤ time i := by
  rw [List.countP_map]
  rfl

theorem listsEveryRowOnce_distinctTimes :
    ((timedRows (fun i => i) 101).matching (restQuery decimalDigit id {})).length = 101 ∧
      ∀ find : SearchFinder, (timedRows (fun i => i) 101).Answers (restQuery decimalDigit id {}) find.findList →
        ListsEveryRowOnce decimalDigit find {}
          ((timedRows (fun i => i) 101).matching (restQuery decimalDigit id {})) := by
  refine ⟨by rw [matching_timedRows, List.length_map, List.length_range], ?_⟩
  refine (listsEveryRowOnce_iff decimalDigits_decimalDigit id {} _ ⟨rfl, rfl⟩).mpr ⟨?_, ?_⟩
  · rw [matching_timedRows, List.length_map, List.length_range]
    decide
  · intro k hk hlt
    rw [matching_timedRows, List.length_map, List.length_range] at hlt
    obtain rfl : k = 1 := by omega
    rw [matching_timedRows]
    exact ⟨1, (countP_timedRows _ _ _).trans (by decide +kernel)⟩

/-- Of 101 rows of one time any can be on the second page, whatever was on the first. -/
theorem not_listsEveryRowOnce_sameTime : ¬ ∀ find : SearchFinder,
    (timedRows (fun _ => 5) 101).Answers (restQuery decimalDigit id {}) find.findList →
    ListsEveryRowOnce decimalDigit find {}
      ((timedRows (fun _ => 5) 101).matching (restQuery decimalDigit id {})) := by
  intro hlists
  have hlength : ((timedRows (fun _ => 5) 101).matching (restQuery decimalDigit id {})).length = 101 := by
    rw [matching_timedRows, List.length_map, List.length_range]
  obtain ⟨bound, hbound⟩ := boundary_of_listsEveryRowOnce decimalDigits_decimalDigit ⟨rfl, rfl⟩
    (by rw [hlength]; decide) hlists (k := 1) le_rfl (by rw [hlength]; decide)
  rw [matching_timedRows] at hbound
  have hcount := (countP_timedRows _ _ _).symm.trans hbound
  by_cases hle : bound ≤ 5 <;> simp [hle] at hcount

end examples

end paging

end controllers
