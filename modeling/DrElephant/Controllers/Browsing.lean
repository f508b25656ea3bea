import DrElephant.Controllers.Lookup
import DrElephant.Controllers.RestPaging
import DrElephant.Library.UrlEncoding

open collections drelephant.util java.lang machine models transition

/-- The fields that the pages of a search show. -/
def models.AppResult.getSearchFields : String :=
  Utils.commaSeparated (["name", "username", "queueName", "jobType", "severity", "finishTime"].map some)

namespace controllers

def APP_ID : String := "id"
def FLOW_EXEC_ID : String := "flow-exec-id"
def USERNAME : String := "username"
def QUEUE_NAME : String := "queue-name"
def SEVERITY : String := "severity"
def JOB_TYPE : String := "job-type"
def ANALYSIS : String := "analysis"
def STARTED_TIME_BEGIN : String := "started-time-begin"
def STARTED_TIME_END : String := "started-time-end"
def FINISHED_TIME_BEGIN : String := "finished-time-begin"
def FINISHED_TIME_END : String := "finished-time-end"
def PAGE : String := "page"

/-- The values of a parameter, of which there is at least one. -/
structure ParameterValues where
  first : String
  more : List String := []

/-- The parameters in the url of a request. -/
abbrev QueryString := OrderedMap String ParameterValues

namespace QueryString

def add (queryString : QueryString) (field : String × String) : QueryString :=
  queryString.put field.1 <|
    match queryString.get? field.1 with
    | none => { first := field.2 }
    | some values => { values with more := values.more ++ [field.2] }

def ofFields (fields : List (String × String)) : QueryString := fields.foldl add .empty

/-- What a form has for a parameter. -/
def get (queryString : QueryString) (key : String) : Option String :=
  (queryString.get? key).map ParameterValues.first

def searchForm (queryString : QueryString) : SearchForm where
  appId := queryString.get APP_ID
  flowExecId := queryString.get FLOW_EXEC_ID
  page := queryString.get PAGE

def searchParams (queryString : QueryString) : SearchParams where
  username := queryString.get USERNAME
  queuename := queryString.get QUEUE_NAME
  severity := queryString.get SEVERITY
  jobType := queryString.get JOB_TYPE
  analysis := queryString.get ANALYSIS
  finishedTimeBegin := queryString.get FINISHED_TIME_BEGIN
  finishedTimeEnd := queryString.get FINISHED_TIME_END
  startedTimeBegin := queryString.get STARTED_TIME_BEGIN
  startedTimeEnd := queryString.get STARTED_TIME_END

/-- The parameters but for the page. -/
def fields (queryString : QueryString) (order : HashOrder String ParameterValues) : List (String × String) :=
  ((order.iterate queryString.entries).map fun entry => (entry.1, entry.2.first)).filter fun field =>
    field.1 != PAGE

end QueryString

/-- Parses the request for the queryString. -/
def getQueryString (format : List (String × String) → String) (queryString : QueryString)
    (order : HashOrder String ParameterValues) : Option String :=
  if (queryString.fields order).isEmpty then none else some (format (queryString.fields order))

/-- The page that a link of the bar leads to. -/
def PageItem.target : PageItem → Option Int
  | previous page => page
  | link page => some page
  | active _ => none
  | next page => page

/-- The query of such a link. -/
def href (stats : PaginationStats) (page : Int) : String :=
  (match stats.queryString with
    | some queryString => queryString ++ "&"
    | none => "") ++ "page=" ++ toString page

/-- What requests are answered with: `URLEncodedUtils.format`, which writes the
queries of links, and the parser of requests, which reads them; a table that
does not change, and the rows that a query finds in it, in their order. -/
structure SearchService where
  format : List (String × String) → String
  parse : String → Option (List (String × String))
  digit : Char → Option Nat
  toLowerCase : String → String
  order : HashOrder String ParameterValues
  find : SearchFinder
  findList : SearchQuery → List AppResult

namespace SearchService

/-- The rows that the parameters of a request match. -/
def matching (service : SearchService) (queryString : QueryString) : List AppResult :=
  service.findList (generateSearchQuery service.digit AppResult.getSearchFields
    (some (getSearchParams service.toLowerCase queryString.searchParams)))

def answer (service : SearchService) (queryString : QueryString) : Except JavaException SearchAnswer :=
  Application.search service.digit service.find (service.matching queryString)
    (getQueryString service.format queryString service.order) queryString.searchForm

/-- A link of a page that was shown is followed. -/
def Follows (service : SearchService) (queryString next : QueryString) : Prop :=
  ∃ stats results item page fields,
    service.answer queryString = .ok (.page (.results stats results)) ∧ item ∈ pagination stats ∧
    item.target = some page ∧ service.parse (href stats page) = some fields ∧ next = .ofFields fields

/-- Browsing from a first request. -/
def browsing (service : SearchService) (start : QueryString) : System QueryString where
  init queryString := queryString = start
  step := service.Follows

end SearchService

namespace QueryString

theorem get_add (queryString : QueryString) (field : String × String) (key : String) :
    (queryString.add field).get key = (queryString.get key).or (if field.1 = key then some field.2 else none) := by
  rw [get, add, OrderedMap.get?_put]
  by_cases hkey : field.1 = key
  · subst hkey
    rw [if_pos (beq_self_eq_true _), if_pos rfl, get]
    cases queryString.get? field.1 <;> rfl
  · rw [if_neg (by simpa using hkey), if_neg hkey, Option.or_none, get]

/-- Of several fields with one name the first counts. -/
theorem get_ofFields (fields : List (String × String)) (key : String) :
    (ofFields fields).get key = (fields.find? fun field => field.1 == key).map Prod.snd := by
  have hfoldl : ∀ queryString : QueryString, (fields.foldl add queryString).get key =
      (queryString.get key).or ((fields.find? fun field => field.1 == key).map Prod.snd) := by
    induction fields with
    | nil => exact fun queryString => Option.or_none.symm
    | cons field fields ih =>
      intro queryString
      rw [List.foldl_cons, ih, get_add, Option.or_assoc, List.find?_cons]
      by_cases hkey : field.1 = key
      · simp [hkey]
      · rw [if_neg hkey, Option.none_or, beq_false_of_ne hkey]
  exact (hfoldl .empty).trans Option.none_or

/-- In whatever order the parameters are listed, each is there with its value. -/
theorem find?_fields (queryString : QueryString) (order : HashOrder String ParameterValues) {key : String}
    (hkey : key ≠ PAGE) :
    ((queryString.fields order).find? fun field => field.1 == key).map Prod.snd = queryString.get key := by
  have hsame : ((fun field : String × String => decide ((field.1 != PAGE) = true ∧ (field.1 == key) = true)) ∘
      fun entry : String × ParameterValues => (entry.1, entry.2.first)) = fun entry => entry.1 == key := by
    funext entry
    by_cases hentry : entry.1 = key
    · simp [hentry, hkey]
    · simp [hentry]
  have hvalues := congrArg List.head? (order.filter_key queryString key)
  rw [List.head?_map, List.head?_filter, Option.head?_toList] at hvalues
  rw [fields, List.find?_filter, List.find?_map, hsame, Option.map_map, get, ← hvalues, Option.map_map]
  rfl

theorem find?_fields_page (queryString : QueryString) (order : HashOrder String ParameterValues) :
    (queryString.fields order).find? (fun field => field.1 == PAGE) = none := by
  refine List.find?_eq_none.mpr fun field hfield => ?_
  have hpage := (List.mem_filter.mp hfield).2
  simpa using hpage

/-- The request that a link to a page makes. -/
def atPage (queryString : QueryString) (order : HashOrder String ParameterValues) (page : Nat) : QueryString :=
  .ofFields (queryString.fields order ++ [(PAGE, toString page)])

theorem get_atPage (queryString : QueryString) (order : HashOrder String ParameterValues) (page : Nat)
    {key : String} (hkey : key ≠ PAGE) : (queryString.atPage order page).get key = queryString.get key := by
  rw [atPage, get_ofFields, List.find?_append, List.find?_singleton, if_neg (by simpa using hkey.symm),
    Option.or_none, find?_fields queryString order hkey]

theorem get_atPage_page (queryString : QueryString) (order : HashOrder String ParameterValues) (page : Nat) :
    (queryString.atPage order page).get PAGE = some (toString page) := by
  rw [atPage, get_ofFields, List.find?_append, find?_fields_page]
  rfl

end QueryString

section browsing

variable {service : SearchService} {start queryString : QueryString} {page : Int}

/-- A link asks for its page and keeps what else was asked for. -/
theorem parse_href (hurl : url.RoundTrip service.format service.parse) {stats : PaginationStats}
    (hstats : stats.queryString = getQueryString service.format queryString service.order) (page : Nat) :
    service.parse (href stats page) = some (queryString.fields service.order ++ [(PAGE, toString page)]) := by
  have hdigits : ∀ c ∈ (toString page).toList, url.isUnreserved c = true := by
    intro c hc
    rw [Nat.toString_eq_repr, Nat.toList_repr] at hc
    have hdigit := Nat.isDigit_of_mem_toDigits (by decide) (by decide) hc
    simp [url.isUnreserved, Char.isAlphanum, hdigit]
  have hname : ∀ c ∈ "page".toList, url.isUnreserved c = true := List.all_eq_true.mp rfl
  have hlink : service.format [(PAGE, toString page)] = "page=" ++ toString page :=
    hurl.singleton _ _ hname hdigits
  have htext : href stats page =
      service.format (queryString.fields service.order ++ [(PAGE, toString page)]) := by
    rw [href, hstats, getQueryString]
    cases hfields : queryString.fields service.order with
    | nil =>
      rw [List.nil_append, hlink]
      rfl
    | cons field fields =>
      rw [hurl.concat _ _ (List.cons_ne_nil _ _), hlink, String.append_assoc]
      rfl
  rw [htext, hurl.parse_format]

/-- A request that asks for a page of a search, which has rows. -/
structure Shows (service : SearchService) (start queryString : QueryString) (page : Int) : Prop where
  params : ∀ key, key ≠ PAGE → queryString.get key = start.get key
  requested : requestedPage service.digit (queryString.get PAGE) =
    { currentPage := page, pageLength := PAGE_LENGTH, pageBarLength := PAGE_BAR_LENGTH }
  positive : 1 ≤ page
  rows : pageRows (service.matching start) page ≠ []

theorem Shows.matching_eq (h : Shows service start queryString page) :
    service.matching queryString = service.matching start := by
  have hparams : queryString.searchParams = start.searchParams := by
    simp only [QueryString.searchParams]
    rw [h.params USERNAME (by decide), h.params QUEUE_NAME (by decide), h.params SEVERITY (by decide),
      h.params JOB_TYPE (by decide), h.params ANALYSIS (by decide), h.params FINISHED_TIME_BEGIN (by decide),
      h.params FINISHED_TIME_END (by decide), h.params STARTED_TIME_BEGIN (by decide),
      h.params STARTED_TIME_END (by decide)]
  rw [SearchService.matching, hparams, SearchService.matching]

theorem formField_eq_none {value : Option String} (h : formField value = none) : (value.map trim).getD "" = "" := by
  rw [formField] at h
  cases hvalue : value.map trim with
  | none => rfl
  | some text =>
    rw [hvalue] at h
    simpa using h

/-- The page that is asked for is shown. -/
theorem Shows.answer_eq (hblank : start.searchForm.Blank) (hlength : (service.matching start).length ≤ 2 ^ 31)
    (h : Shows service start queryString page) : service.answer queryString =
      .ok (.page (.results
        (shownStats (service.matching start) page (getQueryString service.format queryString service.order))
        (pageRows (service.matching start) page))) := by
  have happId : queryString.searchForm.appId = start.searchForm.appId := h.params APP_ID (by decide)
  have hflowExecId : queryString.searchForm.flowExecId = start.searchForm.flowExecId :=
    h.params FLOW_EXEC_ID (by decide)
  have hrows := (pageRows_ne_nil_iff _ h.positive).mp h.rows
  have hsearch := search_eq h.positive h.requested
    (show PAGE_LENGTH * (page - 1) < 2 ^ 31 by omega) (service.matching start)
    (getQueryString service.format queryString service.order)
  rw [if_pos hrows] at hsearch
  rw [SearchService.answer, h.matching_eq, Application.search, happId, formField_eq_none hblank.appId,
    applicationId_empty, hflowExecId, hblank.flowExecId]
  exact congrArg (Except.map SearchAnswer.page) hsearch

/-- The link to the previous page. -/
theorem mem_pagination_previous (stats : PaginationStats) (target : Option Int) :
    .previous target ∈ pagination stats ↔
      target = if stats.currentPage = 1 then none else some (wrap32 (stats.currentPage - 1)) := by
  simp only [pagination, List.mem_append, List.mem_singleton, List.mem_map, PageItem.previous.injEq, reduceCtorEq,
    and_false, exists_false, or_false]
  rfl

/-- The links of a page that is shown lead to pages that have rows. -/
theorem Shows.of_target (hlength : (service.matching start).length ≤ 2 ^ 31)
    (h : Shows service start queryString page) {text : Option String} {item : PageItem} {target : Int}
    (hitem : item ∈ pagination (shownStats (service.matching start) page text))
    (htarget : item.target = some target) :
    1 ≤ target ∧ target ≤ 2147483647 ∧ pageRows (service.matching start) target ≠ [] := by
  have hrows := (pageRows_ne_nil_iff _ h.positive).mp h.rows
  have hbound : PAGE_LENGTH * (page - 1) < 2 ^ 31 := by omega
  obtain ⟨hlinks, hnexts⟩ := mem_pagination h.positive hbound hrows text
  obtain ⟨hlast, hpages⟩ := shownStats_pages (service.matching start) h.positive text
  obtain ⟨hstart, hlow, hhigh⟩ := barStart_bounds h.positive
  have hindex : (shownStats (service.matching start) page text).paginationBarStartIndex = barStart page := rfl
  have hcurrent : (shownStats (service.matching start) page text).currentPage = page := rfl
  simp only [PAGE_LENGTH] at hbound
  have hnonempty : 1 ≤ target ∧ pageRows (service.matching start) target ≠ [] := by
    cases item with
    | previous before =>
      have hbefore := (mem_pagination_previous _ before).mp hitem
      rw [show before = some target from htarget, hcurrent] at hbefore
      by_cases hfirst : page = 1
      · rw [if_pos hfirst] at hbefore
        cases hbefore
      · rw [if_neg hfirst, wrap32_eq_self (by omega) (by omega)] at hbefore
        have htargetPage := Option.some.inj hbefore
        refine ⟨by omega, (pageRows_ne_nil_iff _ (by omega)).mpr ?_⟩
        simp only [PAGE_LENGTH] at hrows ⊢
        omega
    | link number =>
      obtain ⟨hfrom, hto, -⟩ := (hlinks number).mp hitem
      obtain rfl : number = target := Option.some.inj htarget
      exact ⟨by omega, (hpages number hfrom (by omega)).mp hto⟩
    | active number => cases htarget
    | next after =>
      have hafter := (hnexts after).mp hitem
      rw [show after = some target from htarget] at hafter
      split at hafter
      · cases hafter
      · have htargetPage := Option.some.inj hafter
        have hend := (hpages page (by omega) (by omega)).mpr h.rows
        exact ⟨by omega, (hpages target (by omega) (by omega)).mp (by omega)⟩
  obtain ⟨hpositive, htargetRows⟩ := hnonempty
  have hsize := (pageRows_ne_nil_iff _ hpositive).mp htargetRows
  refine ⟨hpositive, ?_, htargetRows⟩
  simp only [PAGE_LENGTH] at hsize
  omega

/-- A page next to the one that is shown has a link if it has rows. -/
theorem Shows.exists_target (hlength : (service.matching start).length ≤ 2 ^ 31)
    (h : Shows service start queryString page) (text : Option String) {target : Int}
    (hadjacent : target = page + 1 ∨ target = page - 1) (hpositive : 1 ≤ target)
    (htarget : pageRows (service.matching start) target ≠ []) :
    ∃ item ∈ pagination (shownStats (service.matching start) page text), item.target = some target := by
  have hrows := (pageRows_ne_nil_iff _ h.positive).mp h.rows
  have hbound : PAGE_LENGTH * (page - 1) < 2 ^ 31 := by omega
  obtain ⟨hlinks, hnexts⟩ := mem_pagination h.positive hbound hrows text
  obtain ⟨hlast, hpages⟩ := shownStats_pages (service.matching start) h.positive text
  obtain ⟨hstart, hlow, hhigh⟩ := barStart_bounds h.positive
  have hindex : (shownStats (service.matching start) page text).paginationBarStartIndex = barStart page := rfl
  have hcurrent : (shownStats (service.matching start) page text).currentPage = page := rfl
  simp only [PAGE_LENGTH] at hbound
  rcases hadjacent with hnext | hprevious
  · have hend := (hpages target (by omega) (by omega)).mpr htarget
    refine ⟨.next (some target), (hnexts (some target)).mpr ?_, rfl⟩
    rw [if_neg (by omega), hnext]
  · refine ⟨.previous (some target), (mem_pagination_previous _ _).mpr ?_, rfl⟩
    rw [hcurrent, if_neg (by omega), wrap32_eq_self (by omega) (by omega), hprevious]

/-- The request of a link asks for its page of the same search. -/
theorem Shows.atPage (hdigit : DecimalDigits service.digit) (h : Shows service start queryString page)
    {target : Nat} (hpositive : 1 ≤ target) (hint : target ≤ 2147483647)
    (htarget : pageRows (service.matching start) target ≠ []) :
    Shows service start (queryString.atPage service.order target) target where
  params key hkey := (queryString.get_atPage service.order target hkey).trans (h.params key hkey)
  requested := by
    rw [queryString.get_atPage_page, requestedPage]
    simp only [parseInt_toString hdigit hint, PaginationStats.setCurrentPage]
    rw [if_neg (by omega)]
  positive := by omega
  rows := htarget

/-- What following a link of a page that is shown comes to. -/
theorem Shows.follows_iff (hurl : url.RoundTrip service.format service.parse) (hblank : start.searchForm.Blank)
    (hlength : (service.matching start).length ≤ 2 ^ 31) (h : Shows service start queryString page)
    (next : QueryString) :
    service.Follows queryString next ↔ ∃ target : Nat, next = queryString.atPage service.order target ∧
      ∃ item ∈ pagination (shownStats (service.matching start) page
        (getQueryString service.format queryString service.order)), item.target = some (target : Int) := by
  have hanswer := h.answer_eq hblank hlength
  constructor
  · rintro ⟨stats, results, item, target, fields, hshown, hitem, htarget, hparse, rfl⟩
    rw [hanswer] at hshown
    cases hshown
    obtain ⟨hpositive, -, -⟩ := h.of_target hlength hitem htarget
    obtain ⟨number, rfl⟩ := Int.eq_ofNat_of_zero_le (show 0 ≤ target by omega)
    rw [parse_href hurl rfl] at hparse
    cases hparse
    exact ⟨number, rfl, item, hitem, htarget⟩
  · rintro ⟨target, rfl, item, hitem, htarget⟩
    exact ⟨_, _, item, target, _, hanswer, hitem, htarget, parse_href hurl rfl target, rfl⟩

/-- Every link leads to a page of the same search. -/
theorem Shows.of_follows (hurl : url.RoundTrip service.format service.parse)
    (hdigit : DecimalDigits service.digit) (hblank : start.searchForm.Blank)
    (hlength : (service.matching start).length ≤ 2 ^ 31) (h : Shows service start queryString page)
    {next : QueryString} (hfollows : service.Follows queryString next) :
    ∃ target : Int, Shows service start next target := by
  obtain ⟨target, rfl, item, hitem, htarget⟩ := (h.follows_iff hurl hblank hlength next).mp hfollows
  obtain ⟨hpositive, hint, hrows⟩ := h.of_target hlength hitem htarget
  exact ⟨target, h.atPage hdigit (by omega) (by omega) hrows⟩

/-- The page behind or before the one that is shown is one link away. -/
theorem Shows.follows_adjacent (hurl : url.RoundTrip service.format service.parse)
    (hdigit : DecimalDigits service.digit) (hblank : start.searchForm.Blank)
    (hlength : (service.matching start).length ≤ 2 ^ 31) (h : Shows service start queryString page)
    {target : Nat} (hadjacent : (target : Int) = page + 1 ∨ (target : Int) = page - 1) (hpositive : 1 ≤ target)
    (hrows : pageRows (service.matching start) target ≠ []) :
    ∃ next, service.Follows queryString next ∧ Shows service start next target := by
  obtain ⟨item, hitem, htarget⟩ := h.exists_target hlength (getQueryString service.format queryString service.order)
    hadjacent (by omega) hrows
  obtain ⟨-, hint, -⟩ := h.of_target hlength hitem htarget
  exact ⟨_, (h.follows_iff hurl hblank hlength _).mpr ⟨target, rfl, item, hitem, htarget⟩,
    h.atPage hdigit hpositive (by omega) hrows⟩

/-- The number of pages that have rows. -/
def pageCount (rows : List AppResult) : Nat := (rows.length + 19) / 20

theorem pageRows_ne_nil_iff_le (rows : List AppResult) {page : Int} (hpage : 1 ≤ page) :
    pageRows rows page ≠ [] ↔ page ≤ pageCount rows := by
  rw [pageRows_ne_nil_iff rows hpage, PAGE_LENGTH, pageCount]
  omega

/-- The pages have all rows, in their order. -/
theorem flatMap_pageRows (rows : List AppResult) :
    ((List.range (pageCount rows)).flatMap fun i : Nat => pageRows rows (i + 1)) = rows := by
  have hpage : ∀ i : Nat, pageRows rows (i + 1) = (rows.drop (20 * i)).take 20 := by
    intro i
    rw [pageRows, PAGE_LENGTH, show (20 * ((i : Int) + 1 - 1)).toNat = 20 * i by omega]
    rfl
  simp only [hpage]
  rw [paging.flatMap_slices, List.take_of_length_le]
  rw [pageCount]
  omega

/-- Any page of a search can be reached from any other. -/
theorem Shows.run (hurl : url.RoundTrip service.format service.parse)
    (hdigit : DecimalDigits service.digit) (hblank : start.searchForm.Blank)
    (hlength : (service.matching start).length ≤ 2 ^ 31) (h : Shows service start queryString page)
    {target : Nat} (hpositive : 1 ≤ target) (hcount : target ≤ pageCount (service.matching start)) :
    ∃ next, (service.browsing start).Run queryString next ∧ Shows service start next target := by
  -- The induction is on the number of links to follow.
  induction hdistance : ((target : Int) - page).natAbs generalizing target with
  | zero =>
    obtain rfl : page = target := by omega
    exact ⟨queryString, .refl, h⟩
  | succ distance ih =>
    have hpage := (pageRows_ne_nil_iff_le _ h.positive).mp h.rows
    have hfirst := h.positive
    obtain ⟨before, hbefore, hadjacent, hle, hnear⟩ : ∃ before : Nat, 1 ≤ before ∧
        ((target : Int) = before + 1 ∨ (target : Int) = before - 1) ∧
        before ≤ pageCount (service.matching start) ∧ ((before : Int) - page).natAbs = distance := by
      rcases lt_or_gt_of_ne (show (target : Int) ≠ page by omega) with hlt | hgt
      · exact ⟨target + 1, by omega, by omega, by omega, by omega⟩
      · exact ⟨target - 1, by omega, by omega, by omega, by omega⟩
    obtain ⟨middle, hrun, hmiddle⟩ := ih hbefore hle hnear
    obtain ⟨next, hfollows, hnext⟩ := hmiddle.follows_adjacent hurl hdigit hblank hlength hadjacent hpositive
      ((pageRows_ne_nil_iff_le _ (by omega)).mpr (by omega))
    exact ⟨next, hrun.tail hfollows, hnext⟩

/-- Whoever follows the links of the pages of a search, from whatever page, is
shown pages of this search and no others, and can get to each of them; together
they have each row that it matches once. -/
theorem browsing_shows_rows (hurl : url.RoundTrip service.format service.parse)
    (hdigit : DecimalDigits service.digit) (hblank : start.searchForm.Blank)
    (hlength : (service.matching start).length ≤ 2 ^ 31)
    (hstart : pageRows (service.matching start)
      (requestedPage service.digit start.searchForm.page).currentPage ≠ []) :
    let rows := service.matching start
    ((List.range (pageCount rows)).flatMap fun i : Nat => pageRows rows (i + 1)) = rows ∧
    (∀ queryString, (service.browsing start).Reachable queryString →
      ∃ stats, ∃ page : Nat, 1 ≤ page ∧ page ≤ pageCount rows ∧
        service.answer queryString = .ok (.page (.results stats (pageRows rows page)))) ∧
    ∀ page : Nat, 1 ≤ page → page ≤ pageCount rows → ∃ queryString stats,
      (service.browsing start).Reachable queryString ∧
      service.answer queryString = .ok (.page (.results stats (pageRows rows page))) := by
  intro rows
  obtain ⟨current, hcurrent, hrequest⟩ := requestedPage_spec service.digit start.searchForm.page
  rw [hrequest] at hstart
  have hshows : Shows service start start current := ⟨fun _ _ => rfl, hrequest, hcurrent, hstart⟩
  refine ⟨flatMap_pageRows rows, fun queryString hreachable => ?_, fun page hpositive hcount => ?_⟩
  · have hinvariant : (service.browsing start).Invariant fun queryString =>
        ∃ page : Int, Shows service start queryString page := by
      constructor
      · intro first hfirst
        obtain rfl : first = start := hfirst
        exact ⟨current, hshows⟩
      · rintro queryString next ⟨page, hpage⟩ hfollows
        exact hpage.of_follows hurl hdigit hblank hlength hfollows
    obtain ⟨page, hpage⟩ := hinvariant.of_reachable hreachable
    have hcount := (pageRows_ne_nil_iff_le _ hpage.positive).mp hpage.rows
    obtain ⟨number, rfl⟩ := Int.eq_ofNat_of_zero_le (Int.le_trans Int.one_nonneg hpage.positive)
    exact ⟨_, number, by have := hpage.positive; omega, Int.ofNat_le.mp hcount, hpage.answer_eq hblank hlength⟩
  · obtain ⟨queryString, hrun, hpage⟩ := hshows.run hurl hdigit hblank hlength hpositive hcount
    exact ⟨queryString, _, ⟨start, rfl, hrun⟩, hpage.answer_eq hblank hlength⟩

end browsing

/-- A table of 21 jobs of one user. -/
private def busyUser : SearchService where
  format := url.format
  parse := url.parse
  digit := decimalDigit
  toLowerCase := id
  order := .insertion
  find := ⟨fun _ => none, fun _ => [], fun _ _ => []⟩
  findList _ := List.replicate 21 (.row "application_1" "job" "exec" 1)

theorem browsing_shows_rows_busyUser : ∃ queryString stats,
    (busyUser.browsing (.ofFields [(USERNAME, "a&b")])).Reachable queryString ∧
    busyUser.answer queryString =
      .ok (.page (.results stats [.row "application_1" "job" "exec" 1])) := by
  obtain ⟨-, -, hpages⟩ := @browsing_shows_rows busyUser (.ofFields [(USERNAME, "a&b")])
    url.roundTrip decimalDigits_decimalDigit ⟨rfl, rfl⟩ (by decide) (by decide)
  exact hpages 2 (by decide) (by decide)

end controllers
