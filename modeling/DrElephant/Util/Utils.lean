import Mathlib.Data.List.Basic
import DrElephant.Analysis.Severity
import DrElephant.Java.CodeUnits
import DrElephant.Library.MachineInt

open drelephant.analysis java.lang machine

namespace drelephant.util.Utils

def TRUNCATE_SUFFIX : String := "..."

/-- Cuts a field to a limit, marking the cut. Null stays null. -/
def truncateField (field : Option String) (limit : Nat) : Option String :=
  match field with
  | none => none
  | some text =>
    if limit > TRUNCATE_SUFFIX.length ∧ utf16Length text > limit then
      some (substringTo text (limit - 3) ++ TRUNCATE_SUFFIX)
    else some text

def isSet (property : Option String) : Bool :=
  match property with
  | none => false
  | some text => !text.isEmpty

/-- Combine the parts into a comma separated String. -/
def commaSeparated : List (Option String) → String
  | [] => ""
  | first :: parts => parts.foldl
      (fun text part => if isSet part then text ++ "," ++ part.getD "null" else text) (first.getD "null")

/-- `String.format` with nothing but `%s`. -/
def format : List Char → List String → List Char
  | '%' :: 's' :: formatString, arg :: args => arg.toList ++ format formatString args
  | c :: formatString, args => c :: format formatString args
  | [], _ => []

/-- Null if one of the arguments is null. -/
def formatStringOrNull (formatString : String) (args : List (Option String)) : Option String :=
  (args.mapM id).map fun args => String.ofList (format formatString.toList args)

/-- The score of a heuristic from the number of tasks; NONE and LOW do not count. -/
def getHeuristicScore (severity : Severity) (tasks : Nat) : Int :=
  if severity ≠ .NONE ∧ severity ≠ .LOW then wrap32 (severity.getValue * tasks) else 0

@[simp] theorem getHeuristicScore_zero (severity : Severity) : getHeuristicScore severity 0 = 0 := by
  simp [getHeuristicScore]

/-- A field within its limit is stored as it is. -/
theorem truncateField_of_le {text : String} {limit : Nat} (h : utf16Length text ≤ limit) :
    truncateField (some text) limit = some text := by
  simp only [truncateField]
  rw [if_neg]
  omega

/-- What truncation returns fits the limit. -/
theorem utf16Length_truncateField {field : Option String} {limit : Nat} (hlimit : 3 < limit)
    {text : String} (h : truncateField field limit = some text) : utf16Length text ≤ limit := by
  have hsuffix : utf16Length TRUNCATE_SUFFIX = 3 := rfl
  cases field with
  | none => cases h
  | some field =>
    simp only [truncateField] at h
    split at h
    · obtain rfl := Option.some.inj h
      rw [utf16Length_append, utf16Length_substringTo (by omega), hsuffix]
      omega
    · rename_i hfits
      have hlength : TRUNCATE_SUFFIX.length = 3 := rfl
      obtain rfl := Option.some.inj h
      omega

/-- A cut field begins as the field does. -/
theorem substringTo_truncateField {text stored : String} {limit : Nat}
    (h : truncateField (some text) limit = some stored) :
    substringTo stored (limit - 3) = substringTo text (limit - 3) := by
  simp only [truncateField] at h
  split at h
  · obtain rfl := Option.some.inj h
    exact substringTo_append (utf16Length_substringTo (by omega))
  · obtain rfl := Option.some.inj h
    rfl

/-- Nothing tells what was cut off. -/
theorem truncateField_append {kept rest rest' : String} {limit : Nat} (hkept : utf16Length kept = limit - 3)
    (hlimit : 3 < limit) (hrest : 3 < utf16Length rest) (hrest' : 3 < utf16Length rest') :
    truncateField (some (kept ++ rest)) limit = truncateField (some (kept ++ rest')) limit := by
  have hcut : ∀ {rest : String}, 3 < utf16Length rest →
      truncateField (some (kept ++ rest)) limit = some (kept ++ TRUNCATE_SUFFIX) := by
    intro rest hrest
    have hsuffix : TRUNCATE_SUFFIX.length = 3 := rfl
    simp only [truncateField, substringTo_append hkept]
    rw [if_pos]
    rw [utf16Length_append]
    omega
  rw [hcut hrest, hcut hrest']

theorem exists_truncateField (text : String) (limit : Nat) :
    ∃ stored, truncateField (some text) limit = some stored := by
  simp only [truncateField]
  split <;> exact ⟨_, rfl⟩

theorem formatStringOrNull_eq_none_iff {formatString : String} {args : List (Option String)} :
    formatStringOrNull formatString args = none ↔ none ∈ args := by
  rw [formatStringOrNull, Option.map_eq_none_iff]
  induction args with
  | nil => simp
  | cons arg args ih =>
    cases arg with
    | none => simp
    | some arg =>
      rw [List.mem_cons, or_iff_right (by simp), ← ih]
      cases hrest : args.mapM id <;> simp [List.mapM_cons, hrest]

theorem isSet_eq_true_iff {property : Option String} :
    isSet property = true ↔ ∃ text, property = some text ∧ text ≠ "" := by
  cases property <;> simp [isSet]

/-- Cutting a field leaves something of it. -/
theorem isSet_truncateField (field : Option String) (limit : Nat) :
    isSet (truncateField field limit) = isSet field := by
  cases field with
  | none => rfl
  | some text =>
    simp only [truncateField]
    split
    · rename_i hlong
      have htext : text ≠ "" := by
        rintro rfl
        exact Nat.not_lt_zero _ hlong.2
      rw [isSet_eq_true_iff.mpr ⟨_, rfl, by simp [TRUNCATE_SUFFIX]⟩, isSet_eq_true_iff.mpr ⟨text, rfl, htext⟩]
    · rfl

end drelephant.util.Utils
