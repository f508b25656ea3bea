import DrElephant.Controllers.History
import DrElephant.Controllers.Search

open java.lang machine models

namespace controllers

def REST_PAGE_LENGTH : Int := 100

/-- What the form of a search says of single jobs and flow executions, and the
parameter of the page. -/
structure SearchForm where
  appId : Option String := none
  flowExecId : Option String := none
  page : Option String := none

/-- A search by parameters. -/
structure SearchForm.Blank (form : SearchForm) : Prop where
  appId : formField form.appId = none
  flowExecId : formField form.flowExecId = none

/-- The queries of a search: by id, by flow execution, and by parameters with a
first row and a maximal number of rows. -/
structure SearchFinder where
  findUnique : String → Option AppResult
  findByFlowExecId : String → List AppResult
  findList : Int → Int → List AppResult

/-- One record or an array of records. -/
inductive Records
  | one (result : AppResult)
  | many (results : List AppResult)
  deriving DecidableEq

/-- The page that a parameter asks for. Unlike in `requestedPage` the exception
of a parameter that does not parse is not caught. -/
def restPage (digit : Char → Option Nat) (page : Option String) : Except JavaException Int :=
  match page with
  | none => .ok 1
  | some page =>
    match parseInt digit page with
    | some page => .ok (if page ≤ 0 then 1 else page)
    | none => .error .numberFormat

/-- What is passed to `setFirstRow`. -/
def restFirstRow (digit : Char → Option Nat) (page : Option String) : Except JavaException Int := do
  let page ← restPage digit page
  pure (wrap32 ((page - 1) * REST_PAGE_LENGTH))

/-- The answer with all records, or that there are none. -/
def records (results : List AppResult) (message : String) : Result Records :=
  if results.length = 0 then .notFound message else .ok (.many results)

def restSearch (digit : Char → Option Nat) (find : SearchFinder) (form : SearchForm) :
    Except JavaException (Result Records) :=
  let appId := replaceAll ((form.appId.map trim).getD "") "job" "application"
  if !appId.isEmpty then
    match find.findUnique appId with
    | some result => .ok (.ok (.one result))
    | none => .ok (.notFound ("Unable to find record on id: " ++ appId))
  else
    match formField form.flowExecId with
    | some flowExecId => .ok (records (find.findByFlowExecId flowExecId)
        ("Unable to find record on flow execution: " ++ flowExecId))
    | none => do
      let firstRow ← restFirstRow digit form.page
      pure (records (find.findList firstRow REST_PAGE_LENGTH) "No records")

/-- What `search` passes to `setFirstRow`. -/
def searchFirstRow (digit : Char → Option Nat) (page : Option String) : Int :=
  let stats := (requestedPage digit page).getPaginationBarStartIndex
  wrap32 ((stats.paginationBarStartIndex - 1) * stats.pageLength)

/-- The rows of a REST page. Pages are counted from 1. -/
def restPageRows (rows : List AppResult) (page : Int) : List AppResult :=
  (rows.drop (REST_PAGE_LENGTH * (page - 1)).toNat).take REST_PAGE_LENGTH.toNat

section pages

variable {digit : Char → Option Nat} {rows rows' : List AppResult} {page : Option String}

/-- A search by parameters has the records of its window. -/
theorem restSearch_blank {find : SearchFinder} {form : SearchForm} (hblank : form.Blank) :
    restSearch digit find form = (restFirstRow digit form.page).map fun firstRow =>
      records (find.findList firstRow REST_PAGE_LENGTH) "No records" := by
  have hempty : (form.appId.map trim).getD "" = "" := by
    have hnone := hblank.appId
    cases happ : form.appId with
    | none => rfl
    | some appId =>
      rw [happ] at hnone
      simpa [formField, Option.filter] using hnone
  have hreplace : (replaceAll "" "job" "application").isEmpty = true := by decide
  rw [restSearch, hempty, hblank.flowExecId]
  simp only [hreplace]
  rfl

/-- The page that a parameter means, the first one if it is not the number of a page. -/
def pageNumber (digit : Char → Option Nat) (page : String) : Int := max ((parseInt digit page).getD 1) 1

/-- Both searches take a parameter for the same page, query from its first row
on and show the rows of that page. -/
structure SamePage (digit : Char → Option Nat) (page : String) : Prop where
  searchPage : (requestedPage digit (some page)).currentPage = pageNumber digit page
  restPage : restPage digit (some page) = .ok (pageNumber digit page)
  searchFirstRow : searchFirstRow digit (some page) =
    PAGE_LENGTH * (max (pageNumber digit page - 2) 1 - 1)
  restFirstRow : restFirstRow digit (some page) = .ok (REST_PAGE_LENGTH * (pageNumber digit page - 1))
  searchRows : ∀ rows queryString, ∃ stats, search digit rows (some page) queryString = .ok
    (if pageRows rows (pageNumber digit page) = [] then .noResults
      else .results stats (pageRows rows (pageNumber digit page)))
  restRows : ∀ rows find form, find.findList = fetchWindow rows → form.Blank → form.page = some page →
    restSearch digit find form = .ok (records (restPageRows rows (pageNumber digit page)) "No records")

variable {page : String}

private theorem requestedPage_some (digit : Char → Option Nat) (page : String) :
    requestedPage digit (some page) =
      { currentPage := pageNumber digit page, pageLength := PAGE_LENGTH, pageBarLength := PAGE_BAR_LENGTH } := by
  cases hparse : parseInt digit page with
  | none => simp [requestedPage, hparse, PaginationStats.setCurrentPage, pageNumber]
  | some number =>
    have hcurrent : (if number < 1 then 1 else number) = max number 1 := by
      split <;> omega
    simp [requestedPage, hparse, PaginationStats.setCurrentPage, pageNumber, hcurrent]

private theorem one_le_pageNumber (digit : Char → Option Nat) (page : String) : 1 ≤ pageNumber digit page :=
  le_max_right _ _

theorem restPage_eq {number : Int} (hparse : parseInt digit page = some number) :
    restPage digit (some page) = .ok (pageNumber digit page) := by
  have hpage : (if number ≤ 0 then 1 else number) = max number 1 := by
    split <;> omega
  simp [restPage, hparse, pageNumber, hpage]

/-- A search for any page whose first row is an int shows the rows of that page. -/
private theorem search_pageNumber (hbound : PAGE_LENGTH * (pageNumber digit page - 1) < 2 ^ 31)
    (rows : List AppResult) (queryString : Option String) :
    ∃ stats, search digit rows (some page) queryString = .ok
      (if pageRows rows (pageNumber digit page) = [] then .noResults
        else .results stats (pageRows rows (pageNumber digit page))) := by
  have hone := one_le_pageNumber digit page
  refine ⟨shownStats rows (pageNumber digit page) queryString, ?_⟩
  rw [search_eq hone (requestedPage_some digit page) hbound, apply_ite Except.ok]
  by_cases hrows : pageRows rows (pageNumber digit page) = []
  · rw [if_pos hrows, if_neg fun hlt => (pageRows_ne_nil_iff rows hone).mpr hlt hrows]
  · rw [if_neg hrows, if_pos ((pageRows_ne_nil_iff rows hone).mp hrows)]

/-- The offsets of both searches are exact for a page whose REST offset is an int. -/
private theorem firstRows_eq (hbound : REST_PAGE_LENGTH * (pageNumber digit page - 1) < 2 ^ 31) :
    searchFirstRow digit (some page) = PAGE_LENGTH * (max (pageNumber digit page - 2) 1 - 1) ∧
      wrap32 ((pageNumber digit page - 1) * REST_PAGE_LENGTH) =
        REST_PAGE_LENGTH * (pageNumber digit page - 1) := by
  have hone := one_le_pageNumber digit page
  rw [REST_PAGE_LENGTH] at hbound ⊢
  constructor
  · have hhalf : PAGE_BAR_LENGTH.tdiv 2 = 2 := rfl
    have hstart : wrap32 (pageNumber digit page - 2) = pageNumber digit page - 2 :=
      wrap32_eq_self (by omega) (by omega)
    simp only [searchFirstRow, requestedPage_some, PaginationStats.getPaginationBarStartIndex, hhalf, hstart]
    rw [PAGE_LENGTH, wrap32_eq_self (by omega) (by omega), mul_comm]
  · rw [wrap32_eq_self (by omega) (by omega), mul_comm]

/-- The last page whose first row is an int. -/
def MAX_REST_PAGE : Int := 21474837

/-- The two searches agree on the numbers up to the last page whose first row
is an int, and on nothing else. -/
theorem samePage_iff (digit : Char → Option Nat) (page : String) :
    SamePage digit page ↔ ∃ number, parseInt digit page = some number ∧ number ≤ MAX_REST_PAGE := by
  have hone := one_le_pageNumber digit page
  constructor
  · intro hsame
    cases hparse : parseInt digit page with
    | none =>
      have hrest := hsame.restPage
      simp only [restPage, hparse] at hrest
      cases hrest
    | some number =>
      refine ⟨number, rfl, ?_⟩
      have hrest := hsame.restFirstRow
      rw [restFirstRow, restPage_eq hparse] at hrest
      have hexact := Except.ok.inj hrest
      have hrange := wrap32_range ((pageNumber digit page - 1) * REST_PAGE_LENGTH)
      have hle : number ≤ pageNumber digit page := by simp [pageNumber, hparse]
      rw [hexact, REST_PAGE_LENGTH] at hrange
      rw [MAX_REST_PAGE]
      omega
  · rintro ⟨number, hparse, hnumber⟩
    have hpage : pageNumber digit page = max number 1 := by rw [pageNumber, hparse, Option.getD_some]
    have hbound : REST_PAGE_LENGTH * (pageNumber digit page - 1) < 2 ^ 31 := by
      rw [REST_PAGE_LENGTH]
      rw [MAX_REST_PAGE] at hnumber
      omega
    obtain ⟨hsearch, hrest⟩ := firstRows_eq hbound
    have hrestFirstRow : restFirstRow digit (some page) =
        .ok (REST_PAGE_LENGTH * (pageNumber digit page - 1)) := by
      rw [restFirstRow, restPage_eq hparse, ← hrest]
      rfl
    refine ⟨?_, restPage_eq hparse, hsearch, hrestFirstRow, ?_, ?_⟩
    · rw [requestedPage_some]
    · refine search_pageNumber ?_
      rw [REST_PAGE_LENGTH] at hbound
      rw [PAGE_LENGTH]
      omega
    · intro rows find form hfind hblank hform
      rw [restSearch_blank hblank, hform, hrestFirstRow, hfind]
      rfl

section examples

/-- The digits of the ASCII characters. -/
def decimalDigit (c : Char) : Option Nat := if c.isDigit then some (c.toNat - '0'.toNat) else none

theorem samePage_third : SamePage decimalDigit "3" := (samePage_iff _ _).mpr ⟨3, by decide, by decide⟩

/-- The REST search fails for a text, and page 42949674 starts at the fifth row. -/
theorem not_samePage_text_wrapped : ¬ SamePage decimalDigit "abc" ∧ ¬ SamePage decimalDigit "42949674" := by
  constructor
  · intro hsame
    exact absurd hsame.restPage (by decide)
  · intro hsame
    have hfirst : restFirstRow decimalDigit (some "42949674") = .ok 4 := by decide
    have hpage : pageNumber decimalDigit "42949674" = 42949674 := by decide
    have hexact := hsame.restFirstRow
    rw [hfirst, hpage] at hexact
    exact absurd (Except.ok.inj hexact) (by decide)

end examples

end pages

end controllers
