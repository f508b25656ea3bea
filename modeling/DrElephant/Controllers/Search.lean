import DrElephant.Java.Exception
import DrElephant.Java.Text
import DrElephant.Models.AppResult

open java.lang machine models

namespace controllers

def PAGE_LENGTH : Int := 20
def PAGE_BAR_LENGTH : Int := 5

/-- This class handles the pagination of results in search page. -/
structure PaginationStats where
  currentPage : Int := 1
  paginationBarStartIndex : Int := 1
  paginationBarEndIndex : Int := 1
  pageLength : Int
  pageBarLength : Int
  queryString : Option String := none
  deriving DecidableEq, Repr

namespace PaginationStats

def setCurrentPage (stats : PaginationStats) (currentPage : Int) : PaginationStats :=
  { stats with currentPage := if currentPage < 1 then 1 else currentPage }

/-- Computed such that the currentPage remains at the center of the pagination
bar. The getter sets the field too. -/
def getPaginationBarStartIndex (stats : PaginationStats) : PaginationStats :=
  { stats with
    paginationBarStartIndex := max (wrap32 (stats.currentPage - stats.pageBarLength.tdiv 2)) 1 }

/-- The end index depends on the number of search results that were fetched. -/
def computePaginationBarEndIndex (stats : PaginationStats) (resultSize : Int) : PaginationStats :=
  { stats with
    paginationBarEndIndex := wrap32
      (stats.paginationBarStartIndex + (wrap32 (resultSize - 1)).tdiv stats.pageLength) }

end PaginationStats

/-- What the pagination bar consists of, by the numbers of the pages that it
links. A disabled link leads to none. -/
inductive PageItem
  | previous (page : Option Int)
  | link (page : Int)
  | active (page : Int)
  | next (page : Option Int)
  deriving DecidableEq, Repr

/-- The range of a Scala `until`. -/
def rangeUntil (start stop : Int) : List Int :=
  (List.range (stop - start).toNat).map fun i : Nat => start + (i : Int)

/-- The layout of the pagination bar. -/
def pagination (stats : PaginationStats) : List PageItem :=
  let stats := stats.getPaginationBarStartIndex
  let current := stats.currentPage
  [.previous (if current = 1 then none else some (wrap32 (current - 1)))] ++
    (rangeUntil stats.paginationBarStartIndex current).map .link ++
    [.active current] ++
    (rangeUntil (wrap32 (current + 1)) (wrap32 (stats.paginationBarEndIndex + 1))).map .link ++
    [.next (if current = stats.paginationBarEndIndex then none else some (wrap32 (current + 1)))]

/-- `List.subList` -/
def subList {α : Type} (list : List α) (fromIndex toIndex : Int) : Except JavaException (List α) :=
  if fromIndex < 0 ∨ toIndex > list.length then .error .indexOutOfBounds
  else if fromIndex > toIndex then .error (.other "IllegalArgumentException")
  else .ok ((list.drop fromIndex.toNat).take (toIndex - fromIndex).toNat)

/-- The rows that a query with a first row and a maximal number of rows returns. -/
def fetchWindow (rows : List AppResult) (firstRow maxRows : Int) : List AppResult :=
  (rows.drop firstRow.toNat).take maxRows.toNat

inductive SearchPage
  | noResults
  | results (paginationStats : PaginationStats) (results : List AppResult)

/-- The pagination at the requested page, the first one when none was requested
or its number does not parse. -/
def requestedPage (digit : Char → Option Nat) (page : Option String) : PaginationStats :=
  let stats : PaginationStats := { pageLength := PAGE_LENGTH, pageBarLength := PAGE_BAR_LENGTH }
  let stats := stats.setCurrentPage 1
  match page with
  | none => stats
  | some page =>
    match parseInt digit page with
    | some page => stats.setCurrentPage page
    | none => stats.setCurrentPage 1

/-- The search by parameters, over all rows that match them in the order of the
query. -/
def search (digit : Char → Option Nat) (rows : List AppResult) (page queryString : Option String) :
    Except JavaException SearchPage :=
  let stats := (requestedPage digit page).getPaginationBarStartIndex
  let pageLength := stats.pageLength
  let offset := stats.currentPage - stats.paginationBarStartIndex
  let results := fetchWindow rows (wrap32 ((stats.paginationBarStartIndex - 1) * pageLength))
    (wrap32 ((stats.pageBarLength - 1) * pageLength + 1))
  let stats := { stats with queryString }
  if results.isEmpty then .ok .noResults
  else
    let stats := stats.computePaginationBarEndIndex results.length
    if stats.currentPage > stats.paginationBarEndIndex then .ok .noResults
    else do
      let shown ← subList results (wrap32 (offset * pageLength))
        (min results.length (wrap32 ((offset + 1) * pageLength)))
      pure (.results stats shown)

/-- The rows of a page. Pages are counted from 1. -/
def pageRows (rows : List AppResult) (page : Int) : List AppResult :=
  (rows.drop (PAGE_LENGTH * (page - 1)).toNat).take PAGE_LENGTH.toNat

section paging

variable (rows : List AppResult)

theorem pageRows_ne_nil_iff {page : Int} (hpage : 1 ≤ page) :
    pageRows rows page ≠ [] ↔ PAGE_LENGTH * (page - 1) < rows.length := by
  have hlength : (pageRows rows page).length =
      min 20 (rows.length - (PAGE_LENGTH * (page - 1)).toNat) := by
    simp [pageRows, PAGE_LENGTH]
  rw [← List.length_pos_iff, hlength, PAGE_LENGTH]
  omega

theorem requestedPage_spec (digit : Char → Option Nat) (page : Option String) :
    ∃ currentPage : Int, 1 ≤ currentPage ∧ requestedPage digit page =
      { currentPage, pageLength := PAGE_LENGTH, pageBarLength := PAGE_BAR_LENGTH } := by
  unfold requestedPage
  cases page with
  | none => exact ⟨1, Int.le_refl 1, rfl⟩
  | some page =>
    dsimp only
    cases parseInt digit page with
    | none => exact ⟨1, Int.le_refl 1, rfl⟩
    | some number => exact ⟨if number < 1 then 1 else number, by split <;> omega, rfl⟩

/-- The first page of the bar. -/
def barStart (page : Int) : Int := max (page - 2) 1

/-- The pagination of a page that has rows. -/
def shownStats (page : Int) (queryString : Option String) : PaginationStats where
  currentPage := page
  paginationBarStartIndex := barStart page
  paginationBarEndIndex :=
    barStart page + (min 81 (rows.length - PAGE_LENGTH * (barStart page - 1)) - 1) / PAGE_LENGTH
  pageLength := PAGE_LENGTH
  pageBarLength := PAGE_BAR_LENGTH
  queryString := queryString

variable {rows}

theorem barStart_bounds {page : Int} (hpage : 1 ≤ page) :
    1 ≤ barStart page ∧ page - 2 ≤ barStart page ∧ barStart page ≤ page := by
  unfold barStart
  omega

/-- The start index that is computed in 32 bits. -/
private theorem barStart_eq {page : Int} (hpage : 1 ≤ page) (hbound : 20 * (page - 1) < 2 ^ 31) :
    max (wrap32 (page - PAGE_BAR_LENGTH.tdiv 2)) 1 = barStart page := by
  rw [show PAGE_BAR_LENGTH.tdiv 2 = 2 from rfl, wrap32_eq_self (by omega) (by omega), barStart]

/-- The window that is fetched has the rows of the bar's first pages, and one
row more. -/
theorem length_fetchWindow {start : Int} (hstart : 1 ≤ start) :
    ((fetchWindow rows (PAGE_LENGTH * (start - 1)) 81).length : Int) =
      max 0 (min 81 (rows.length - PAGE_LENGTH * (start - 1))) := by
  simp only [fetchWindow, List.length_take, List.length_drop, PAGE_LENGTH]
  omega

/-- The slice of the window for a page is the page. -/
theorem subList_fetchWindow {start offset : Int} (hstart : 1 ≤ start) (hoffset : 0 ≤ offset)
    (hbar : offset ≤ 2) (hrows : PAGE_LENGTH * (start + offset - 1) < rows.length) :
    let results := fetchWindow rows (PAGE_LENGTH * (start - 1)) 81
    subList results (PAGE_LENGTH * offset) (min results.length (PAGE_LENGTH * (offset + 1))) =
      .ok (pageRows rows (start + offset)) := by
  intro results
  have hlength : (results.length : Int) = max 0 (min 81 (rows.length - PAGE_LENGTH * (start - 1))) :=
    length_fetchWindow hstart
  simp only [PAGE_LENGTH] at hrows hlength ⊢
  rw [subList, if_neg (by omega), if_neg (by omega)]
  have hindex : (20 * (start - 1)).toNat + (20 * offset).toNat = (20 * (start + offset - 1)).toNat := by
    omega
  simp only [results, fetchWindow, pageRows, PAGE_LENGTH] at hlength ⊢
  rw [List.drop_take, List.drop_drop, List.take_take, hindex]
  congr 1
  rw [List.take_eq_take_iff, List.length_drop]
  omega

private theorem barEnd_eq {start size : Int} (hstart : 1 ≤ start) (hbound : start < 2 ^ 30)
    (hsize : 1 ≤ size) (hmax : size ≤ 81) :
    wrap32 (start + (wrap32 (size - 1)).tdiv PAGE_LENGTH) = start + (size - 1) / PAGE_LENGTH := by
  have hcount : wrap32 (size - 1) = size - 1 := wrap32_eq_self (by omega) (by omega)
  rw [hcount, Int.tdiv_eq_ediv_of_nonneg (by omega), PAGE_LENGTH]
  exact wrap32_eq_self (by omega) (by omega)

/-- The rows on a number of pages. -/
private theorem wrap32_pages {pages : Int} (hlo : 0 ≤ pages) (hhi : 20 * pages < 2 ^ 31) :
    wrap32 (pages * PAGE_LENGTH) = PAGE_LENGTH * pages := by
  rw [mul_comm, PAGE_LENGTH]
  exact wrap32_eq_self (by omega) (by omega)

/-- A search shows the rows of the current page if it has any. -/
theorem search_eq {digit : Char → Option Nat} {page : Option String} {current : Int}
    (hcurrent : 1 ≤ current) (hrequest : requestedPage digit page =
      { currentPage := current, pageLength := PAGE_LENGTH, pageBarLength := PAGE_BAR_LENGTH })
    (hbound : PAGE_LENGTH * (current - 1) < 2 ^ 31) (rows : List AppResult)
    (queryString : Option String) : search digit rows page queryString =
      if PAGE_LENGTH * (current - 1) < rows.length then
        .ok (.results (shownStats rows current queryString) (pageRows rows current))
      else .ok .noResults := by
  obtain ⟨hstart, hlow, hhigh⟩ := barStart_bounds hcurrent
  simp only [PAGE_LENGTH] at hbound
  have hbarStart := barStart_eq hcurrent hbound
  have hfirst := wrap32_pages (show 0 ≤ barStart current - 1 by omega) (by omega)
  have hoffset := wrap32_pages (show 0 ≤ current - barStart current by omega) (by omega)
  have hnext := wrap32_pages (show 0 ≤ current - barStart current + 1 by omega) (by omega)
  have hmax : wrap32 ((PAGE_BAR_LENGTH - 1) * PAGE_LENGTH + 1) = 81 := rfl
  simp only [search, hrequest, PaginationStats.getPaginationBarStartIndex,
    PaginationStats.computePaginationBarEndIndex, hbarStart, hfirst, hmax]
  have hlength : ((fetchWindow rows (PAGE_LENGTH * (barStart current - 1)) 81).length : Int) =
      max 0 (min 81 (rows.length - PAGE_LENGTH * (barStart current - 1))) := length_fetchWindow hstart
  by_cases hempty : (fetchWindow rows (PAGE_LENGTH * (barStart current - 1)) 81).isEmpty
  · have hzero := List.length_eq_zero_iff.mpr (List.isEmpty_iff.mp hempty)
    rw [if_pos hempty, if_neg]
    simp only [PAGE_LENGTH] at hlength hzero ⊢
    omega
  · have hpos := List.length_pos_iff.mpr fun hnil => hempty (List.isEmpty_iff.mpr hnil)
    rw [if_neg hempty]
    have hsize : ((fetchWindow rows (PAGE_LENGTH * (barStart current - 1)) 81).length : Int) =
        min 81 (rows.length - PAGE_LENGTH * (barStart current - 1)) := by omega
    rw [hsize, barEnd_eq hstart (by omega) (by omega) (by omega)]
    by_cases hpage : PAGE_LENGTH * (current - 1) < rows.length
    · have hsum : barStart current + (current - barStart current) = current := by omega
      have hslice := subList_fetchWindow hstart (show 0 ≤ current - barStart current by omega) (by omega)
        (by rwa [hsum])
      rw [hsum] at hslice
      rw [if_neg, if_pos hpage, ← hsize, hoffset, hnext, hslice]
      · rw [hsize]
        rfl
      · simp only [PAGE_LENGTH] at hpage hsize ⊢
        omega
    · rw [if_pos, if_neg hpage]
      simp only [PAGE_LENGTH] at hpage ⊢
      omega

theorem mem_rangeUntil {start stop k : Int} : k ∈ rangeUntil start stop ↔ start ≤ k ∧ k < stop := by
  simp only [rangeUntil, List.mem_map, List.mem_range]
  constructor
  · rintro ⟨i, hi, rfl⟩
    omega
  · rintro ⟨hstart, hstop⟩
    exact ⟨(k - start).toNat, by omega, by omega⟩

/-- The bar of a page that has rows: the links to its other pages, and the link
to the next page. -/
theorem mem_pagination {current : Int} (hcurrent : 1 ≤ current)
    (hbound : PAGE_LENGTH * (current - 1) < 2 ^ 31) (hrows : PAGE_LENGTH * (current - 1) < rows.length)
    (queryString : Option String) :
    let stats := shownStats rows current queryString
    (∀ k, .link k ∈ pagination stats ↔
      stats.paginationBarStartIndex ≤ k ∧ k ≤ stats.paginationBarEndIndex ∧ k ≠ current) ∧
    ∀ target, .next target ∈ pagination stats ↔
      target = if current = stats.paginationBarEndIndex then none else some (current + 1) := by
  intro stats
  obtain ⟨hstart, hlow, hhigh⟩ := barStart_bounds hcurrent
  have hend : stats.paginationBarEndIndex = barStart current +
      (min 81 (rows.length - PAGE_LENGTH * (barStart current - 1)) - 1) / PAGE_LENGTH := rfl
  simp only [PAGE_LENGTH] at hbound hrows hend
  have hbarStart : stats.getPaginationBarStartIndex = stats := by
    simp only [PaginationStats.getPaginationBarStartIndex, stats, shownStats,
      barStart_eq hcurrent hbound]
  have hnext : wrap32 (current + 1) = current + 1 := wrap32_eq_self (by omega) (by omega)
  have hstop : wrap32 (stats.paginationBarEndIndex + 1) = stats.paginationBarEndIndex + 1 :=
    wrap32_eq_self (by omega) (by omega)
  have hfields : stats.currentPage = current ∧ stats.paginationBarStartIndex = barStart current :=
    ⟨rfl, rfl⟩
  simp only [pagination, hbarStart, hfields, hnext, hstop]
  constructor
  · intro k
    simp [mem_rangeUntil]
    omega
  · intro target
    simp

/-- The pages of the bar have rows, and what it leaves of five pages has none. -/
theorem shownStats_pages (rows : List AppResult) {current : Int} (hcurrent : 1 ≤ current)
    (queryString : Option String) :
    let stats := shownStats rows current queryString
    stats.paginationBarEndIndex ≤ stats.paginationBarStartIndex + 4 ∧
      ∀ k, stats.paginationBarStartIndex ≤ k → k ≤ stats.paginationBarStartIndex + 4 →
        (k ≤ stats.paginationBarEndIndex ↔ pageRows rows k ≠ []) := by
  intro stats
  obtain ⟨hstart, hlow, hhigh⟩ := barStart_bounds hcurrent
  have hindex : stats.paginationBarStartIndex = barStart current := rfl
  have hend : stats.paginationBarEndIndex = barStart current +
      (min 81 (rows.length - PAGE_LENGTH * (barStart current - 1)) - 1) / PAGE_LENGTH := rfl
  simp only [PAGE_LENGTH] at hend
  refine ⟨by omega, fun k hk hlast => ?_⟩
  rw [pageRows_ne_nil_iff rows (by omega), PAGE_LENGTH]
  omega

/-- A search shows the rows of the requested page, or that there are none. The
bar links pages that have rows, all of them if the bar is short, and the next
page if it has rows. -/
theorem search_paging (digit : Char → Option Nat) (rows : List AppResult)
    (page queryString : Option String)
    (hbound : PAGE_LENGTH * ((requestedPage digit page).currentPage - 1) < 2 ^ 31) :
    let current := (requestedPage digit page).currentPage
    1 ≤ current ∧
    (pageRows rows current = [] → search digit rows page queryString = .ok .noResults) ∧
    (pageRows rows current ≠ [] → ∃ stats,
      search digit rows page queryString = .ok (.results stats (pageRows rows current)) ∧
      (∀ k, .link k ∈ pagination stats ↔
        stats.paginationBarStartIndex ≤ k ∧ k ≤ stats.paginationBarEndIndex ∧ k ≠ current) ∧
      (∀ k, stats.paginationBarStartIndex ≤ k → k ≤ stats.paginationBarEndIndex →
        pageRows rows k ≠ []) ∧
      (∀ k, stats.paginationBarEndIndex < k → k ≤ stats.paginationBarStartIndex + 4 →
        pageRows rows k = []) ∧
      (.next (some (current + 1)) ∈ pagination stats ↔ pageRows rows (current + 1) ≠ []) ∧
      (.next none ∈ pagination stats ↔ pageRows rows (current + 1) = [])) := by
  intro current
  obtain ⟨number, hnumber, hrequest⟩ := requestedPage_spec digit page
  obtain rfl : current = number := congrArg PaginationStats.currentPage hrequest
  have hsearch := search_eq hnumber hrequest hbound rows queryString
  refine ⟨hnumber, fun hempty => ?_, fun hne => ?_⟩
  · rw [hsearch, if_neg fun hrows => (pageRows_ne_nil_iff rows hnumber).mpr hrows hempty]
  · have hrows := (pageRows_ne_nil_iff rows hnumber).mp hne
    rw [if_pos hrows] at hsearch
    obtain ⟨hlinks, hnext⟩ := mem_pagination hnumber hbound hrows queryString
    obtain ⟨hlast, hpages⟩ := shownStats_pages rows hnumber queryString
    obtain ⟨hstart, hlow, hhigh⟩ := barStart_bounds hnumber
    have hindex : (shownStats rows current queryString).paginationBarStartIndex = barStart current := rfl
    have hcurrent := (hpages current (by omega) (by omega)).mpr hne
    have hafter := hpages (current + 1) (by omega) (by omega)
    refine ⟨_, hsearch, hlinks, fun k hk hend => ?_, fun k hend hk => ?_, ?_⟩
    · exact (hpages k hk (by omega)).mp hend
    · by_contra hrows
      have := (hpages k (by omega) hk).mpr hrows
      omega
    · rw [hnext, hnext]
      by_cases hend : current = (shownStats rows current queryString).paginationBarEndIndex
      · have hnone : pageRows rows (current + 1) = [] := not_ne_iff.mp fun hrows => by
          have := hafter.mpr hrows
          omega
        simp [if_pos hend, hnone]
      · have hsome : pageRows rows (current + 1) ≠ [] := hafter.mp (by omega)
        simp [if_neg hend, hsome]

end paging

/-- One row more than a page holds. -/
private def overfull : List AppResult := List.replicate 21 (.row "application_1" "job" "exec" 1)

private def asciiDigit (c : Char) : Option Nat := if c.isDigit then some (c.toNat - '0'.toNat) else none

theorem search_paging_overfull : ∃ stats,
    search asciiDigit overfull (some "2") none = .ok (.results stats (pageRows overfull 2)) ∧
      .next none ∈ pagination stats := by
  have hpage : (requestedPage asciiDigit (some "2")).currentPage = 2 := by decide
  obtain ⟨-, -, hsome⟩ := search_paging asciiDigit overfull (some "2") none (by rw [hpage]; decide)
  rw [hpage] at hsome
  obtain ⟨stats, hsearch, -, -, -, -, hnone⟩ :=
    hsome ((pageRows_ne_nil_iff overfull (by decide)).mpr (by decide))
  refine ⟨stats, hsearch, hnone.mpr ?_⟩
  by_contra hrows
  exact absurd ((pageRows_ne_nil_iff overfull (by decide)).mp hrows) (by decide)

end controllers
