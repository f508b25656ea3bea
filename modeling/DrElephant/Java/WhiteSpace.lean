import Mathlib.Data.List.DropRight
import DrElephant.Java.Text

namespace java.lang

/-- The white space of regular expressions. -/
def isWhiteSpace (c : Char) : Bool := [' ', '\t', '\n', '\x0B', '\x0C', '\r'].contains c

/-- `String.split("\\s")`: trailing empty parts are left out, unless nothing was
split at all. -/
def splitWhiteSpace (text : String) : List String :=
  let parts := (text.toList.splitOnP isWhiteSpace).map String.ofList
  if parts.length = 1 then parts else (parts.reverse.dropWhile String.isEmpty).reverse

/-- `String.split` at a character into two parts at most. -/
def splitInTwo (separator : Char) (text : String) : List String :=
  match text.toList.dropWhile (· != separator) with
  | [] => [text]
  | _ :: rest => [String.ofList (text.toList.takeWhile (· != separator)), String.ofList rest]

theorem splitInTwo_append {separator : Char} {key : String} (hkey : separator ∉ key.toList)
    (value : String) : splitInTwo separator (key ++ String.singleton separator ++ value) = [key, value] := by
  have hplain : ∀ c ∈ key.toList, (c != separator) = true := by
    intro c hc
    exact bne_iff_ne.mpr (ne_of_mem_of_not_mem hc hkey)
  simp only [splitInTwo, String.toList_append, String.toList_singleton, List.append_assoc, List.singleton_append]
  rw [List.dropWhile_append_of_pos hplain, List.takeWhile_append_of_pos hplain]
  simp

/-- Two parts were separated by the first separator. -/
theorem eq_append_of_splitInTwo {separator : Char} {text key value : String}
    (h : splitInTwo separator text = [key, value]) :
    separator ∉ key.toList ∧ text = key ++ String.singleton separator ++ value := by
  rw [splitInTwo] at h
  split at h
  · cases h
  · rename_i c rest hrest
    obtain ⟨rfl, hvalue⟩ := List.cons.inj h
    obtain ⟨rfl, -⟩ := List.cons.inj hvalue
    have hc : c = separator := by
      have hnot := List.head?_dropWhile_not (· != separator) text.toList
      simpa [hrest] using hnot
    refine ⟨fun hmem => ?_, ?_⟩
    · rw [String.toList_ofList] at hmem
      simpa using List.mem_takeWhile_imp hmem
    · have hsplit := List.takeWhile_append_dropWhile (p := (· != separator)) (l := text.toList)
      rw [hrest, hc] at hsplit
      rw [← String.toList_inj, String.toList_append, String.toList_append, String.toList_ofList,
        String.toList_ofList, String.toList_singleton, List.append_assoc]
      exact hsplit.symm

section separated

/-- A token has no white space in it and is not what `trim` would cut at. -/
structure IsToken (token : List Char) : Prop where
  ne_nil : token ≠ []
  plain : ∀ c ∈ token, isWhiteSpace c = false
  head : ∀ c ∈ token.head?, 32 < c.toNat
  last : ∀ c ∈ token.getLast?, 32 < c.toNat

theorem le_space_of_isWhiteSpace {c : Char} (h : isWhiteSpace c = true) :
    decide (c.toNat ≤ 32) = true := by
  simp only [isWhiteSpace, List.contains_eq_mem, List.mem_cons, List.not_mem_nil, or_false,
    decide_eq_true_eq] at h
  rcases h with rfl | rfl | rfl | rfl | rfl | rfl <;> rfl

/-- A text above the space is a token. -/
theorem IsToken.of_high {token : List Char} (hne : token ≠ []) (hhigh : ∀ c ∈ token, 32 < c.toNat) :
    IsToken token where
  ne_nil := hne
  plain c hc := by
    by_contra hspace
    have hlow := of_decide_eq_true (le_space_of_isWhiteSpace (by simpa using hspace))
    exact absurd (hhigh c hc) (not_lt.mpr hlow)
  head c hc := hhigh c (List.mem_of_mem_head? hc)
  last c hc := hhigh c (List.mem_of_mem_getLast? hc)

/-- A text that consists of tokens, of white space between them, and of any
white space around them. -/
inductive Separated : List (List Char) → List Char → Prop
  | nil : Separated [] []
  | space {c tokens text} (hspace : isWhiteSpace c = true) (hrest : Separated tokens text) :
      Separated tokens (c :: text)
  | token {token tokens text} (hnext : ∀ c ∈ text.head?, isWhiteSpace c = true)
      (hrest : Separated tokens text) : Separated (token :: tokens) (token ++ text)

variable {tokens : List (List Char)} {text : List Char}

/-- The parts between white space that are not empty. -/
def parts (text : List Char) : List (List Char) :=
  (text.splitOnP isWhiteSpace).filter fun part => !part.isEmpty

theorem parts_space_cons {c : Char} (hspace : isWhiteSpace c = true) (text : List Char) :
    parts (c :: text) = parts text := by
  simp [parts, List.splitOnP_cons_eq_if_modifyHead, hspace]

theorem parts_token_append {token : List Char} (htoken : IsToken token)
    (hnext : ∀ c ∈ text.head?, isWhiteSpace c = true) : parts (token ++ text) = token :: parts text := by
  have hne : (!token.isEmpty) = true := by simpa using htoken.ne_nil
  cases text with
  | nil =>
    rw [parts, List.append_nil, List.splitOnP_eq_singleton htoken.plain, List.filter_cons, if_pos hne]
    rfl
  | cons c text =>
    have hspace : isWhiteSpace c = true := hnext c rfl
    rw [parts, List.splitOnP_append_cons_of_forall_mem htoken.plain _ hspace, List.filter_cons, if_pos hne,
      parts_space_cons hspace, parts]

theorem Separated.parts_eq (h : Separated tokens text) (htokens : ∀ token ∈ tokens, IsToken token) :
    parts text = tokens := by
  induction h with
  | nil => rfl
  | space hspace _ ih => rw [parts_space_cons hspace, ih htokens]
  | token hnext _ ih =>
    obtain ⟨htoken, hrest⟩ := List.forall_mem_cons.mp htokens
    rw [parts_token_append htoken hnext, ih hrest]

/-- Trimming cuts white space only. -/
theorem Separated.dropWhile (h : Separated tokens text) (htokens : ∀ token ∈ tokens, IsToken token) :
    Separated tokens (text.dropWhile fun c => decide (c.toNat ≤ 32)) := by
  induction h with
  | nil => exact .nil
  | space hspace _ ih =>
    rw [List.dropWhile_cons, if_pos (le_space_of_isWhiteSpace hspace)]
    exact ih htokens
  | @token token tokens text hnext hrest =>
    have htoken := htokens token List.mem_cons_self
    obtain ⟨c, rest, rfl⟩ := List.exists_cons_of_ne_nil htoken.ne_nil
    have hhigh : ¬ decide (c.toNat ≤ 32) = true := by
      simpa using htoken.head c rfl
    rw [List.cons_append, List.dropWhile_cons, if_neg hhigh]
    exact .token hnext hrest

theorem Separated.rdropWhile (h : Separated tokens text) (htokens : ∀ token ∈ tokens, IsToken token) :
    Separated tokens (text.rdropWhile fun c => decide (c.toNat ≤ 32)) := by
  induction h with
  | nil => exact .nil
  | @space c tokens text hspace _ ih =>
    have ih := ih htokens
    rw [List.rdropWhile, List.reverse_cons, List.dropWhile_append]
    rw [List.rdropWhile] at ih
    split
    · rename_i hempty
      rw [List.isEmpty_iff.mp hempty] at ih
      rw [List.dropWhile_cons, if_pos (le_space_of_isWhiteSpace hspace)]
      exact ih
    · rw [List.reverse_append]
      exact .space hspace ih
  | @token token tokens text hnext _ ih =>
    obtain ⟨htoken, hrest⟩ := List.forall_mem_cons.mp htokens
    have ih := ih hrest
    have hstays : token.reverse.dropWhile (fun c => decide (c.toNat ≤ 32)) = token.reverse := by
      rw [List.dropWhile_eq_self_iff]
      intro hlength
      have hlast := htoken.last (token.getLast htoken.ne_nil) (List.getLast?_eq_some_getLast htoken.ne_nil)
      rw [← List.head_reverse (by simpa using htoken.ne_nil)] at hlast
      simpa [List.head_eq_getElem] using hlast
    rw [List.rdropWhile, List.reverse_append, List.dropWhile_append, hstays]
    rw [List.rdropWhile] at ih
    split
    · rename_i hempty
      rw [List.isEmpty_iff.mp hempty] at ih
      rw [List.reverse_reverse]
      simpa using Separated.token (by simp) ih
    · rw [List.reverse_append, List.reverse_reverse]
      refine .token ?_ ih
      intro c hc
      refine hnext c ?_
      obtain ⟨cut, hcut⟩ := List.rdropWhile_prefix (fun c : Char => decide (c.toNat ≤ 32)) text
      rw [List.rdropWhile] at hcut
      rw [← hcut]
      exact List.mem_head?_append_of_mem_head? hc

theorem filter_splitWhiteSpace (text : String) :
    (splitWhiteSpace text).filter (fun part => !part.isEmpty) = (parts text.toList).map String.ofList := by
  have hempty : (fun part : String => !part.isEmpty) ∘ String.ofList = fun part => !part.isEmpty := by
    funext part
    cases part <;> simp
  have hparts : ((text.toList.splitOnP isWhiteSpace).map String.ofList).filter (fun part => !part.isEmpty) =
      (parts text.toList).map String.ofList := by
    rw [List.filter_map, hempty, parts]
  rw [splitWhiteSpace, ← hparts]
  generalize (text.toList.splitOnP isWhiteSpace).map String.ofList = all
  split
  · rfl
  · -- only empty parts are left out at the end
    have hcut : ∀ l : List String, (l.dropWhile String.isEmpty).filter (fun part => !part.isEmpty) =
        l.filter fun part => !part.isEmpty := by
      intro l
      induction l with
      | nil => rfl
      | cons part l ih =>
        cases hpart : part.isEmpty with
        | true => simpa [List.dropWhile_cons, hpart] using ih
        | false => simp [hpart]
    rw [List.filter_reverse, hcut, ← List.filter_reverse, List.reverse_reverse]

/-- The tokens of a text are found again in it. -/
theorem filter_splitWhiteSpace_trim {text : String} (h : Separated tokens text.toList)
    (htokens : ∀ token ∈ tokens, IsToken token) :
    (splitWhiteSpace (trim text)).filter (fun part => !part.isEmpty) = tokens.map String.ofList := by
  rw [filter_splitWhiteSpace, trim, String.toList_ofList]
  exact congrArg _ (((h.dropWhile htokens).rdropWhile htokens).parts_eq htokens)

end separated

end java.lang
