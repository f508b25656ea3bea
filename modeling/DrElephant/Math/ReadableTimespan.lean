import DrElephant.Java.DecimalLiteral
import DrElephant.Math.Statistics

open java.lang java.lang.Double

namespace drelephant.math

inductive TimeUnit
  | hr
  | min
  | sec
  deriving DecidableEq, Repr

namespace TimeUnit

def name : TimeUnit → String
  | hr => "hr"
  | min => "min"
  | sec => "sec"

def seconds : TimeUnit → Nat
  | hr => 3600
  | min => 60
  | sec => 1

theorem name_injective {unit unit' : TimeUnit} (h : unit.name = unit'.name) : unit = unit' := by
  revert h
  cases unit <;> cases unit' <;> decide

theorem space_not_mem_name (unit : TimeUnit) : ' ' ∉ unit.name.toList := by
  cases unit <;> decide

end TimeUnit

/-- Hours, minutes and seconds, each of which may be left out. -/
structure Timespan where
  hours : Option Nat
  minutes : Option Nat
  seconds : Option Nat
  minutes_lt : ∀ m ∈ minutes, m < 60
  seconds_lt : ∀ s ∈ seconds, s < 60

namespace Timespan

variable (span : Timespan)

def total : Nat := span.hours.getD 0 * 3600 + span.minutes.getD 0 * 60 + span.seconds.getD 0

/-- The amounts that are not left out, in the order of their units. -/
def parts : List (Nat × TimeUnit) :=
  span.hours.toList.map (·, .hr) ++ span.minutes.toList.map (·, .min) ++ span.seconds.toList.map (·, .sec)

theorem total_eq : span.total = (span.parts.map fun part => part.1 * part.2.seconds).sum := by
  rw [total, parts]
  cases span.hours <;> cases span.minutes <;> cases span.seconds <;> simp [TimeUnit.seconds, Nat.add_assoc]

def partText (part : Nat × TimeUnit) : String := toString part.1 ++ " " ++ part.2.name

def text : String := " ".intercalate (span.parts.map partText)

end Timespan

section text

open Timespan

variable {parts parts' : List (Nat × TimeUnit)}

theorem toList_partText (part : Nat × TimeUnit) :
    (partText part).toList = (Digits.ofNat part.1).text ++ ' ' :: part.2.name.toList := by
  rw [partText, String.toList_append, String.toList_append, Digits.toList_toString, List.append_assoc]
  rfl

/-- The parts of a span with a space behind each of them. -/
def spaced (parts : List (Nat × TimeUnit)) : String := String.join (parts.map fun part => partText part ++ " ")

theorem toList_spaced_cons (part : Nat × TimeUnit) (parts : List (Nat × TimeUnit)) :
    (spaced (part :: parts)).toList =
      (Digits.ofNat part.1).text ++ ' ' :: (part.2.name.toList ++ ' ' :: (spaced parts).toList) := by
  rw [spaced, List.map_cons, String.join_cons, String.toList_append, String.toList_append, toList_partText]
  simp [spaced]

theorem spaced_eq (hne : parts ≠ []) : spaced parts = " ".intercalate (parts.map partText) ++ " " := by
  induction parts with
  | nil => exact absurd rfl hne
  | cons part parts ih =>
    rw [spaced, List.map_cons, String.join_cons, ← spaced, List.map_cons]
    cases parts with
    | nil => simp [spaced]
    | cons next parts =>
      rw [ih (List.cons_ne_nil _ _), List.map_cons, String.intercalate_cons_cons]
      simp only [String.append_assoc]

theorem spaced_cons_ne (part : Nat × TimeUnit) (parts : List (Nat × TimeUnit)) :
    spaced (part :: parts) ≠ spaced [] := by
  intro h
  have hlist := congrArg String.toList h
  rw [toList_spaced_cons] at hlist
  simp [spaced] at hlist

/-- A text with spaces between numbers and units is read in one way only. -/
theorem spaced_injective (h : spaced parts = spaced parts') : parts = parts' := by
  induction parts generalizing parts' with
  | nil =>
    cases parts' with
    | nil => rfl
    | cons part parts' => exact absurd h.symm (spaced_cons_ne part parts')
  | cons part parts ih =>
    cases parts' with
    | nil => exact absurd h (spaced_cons_ne part parts)
    | cons part' parts' =>
      have hplain : ∀ n : Nat, ' ' ∉ (Digits.ofNat n).text := by
        intro n hmem
        exact absurd ((Digits.ofNat n).isDigit ' ' hmem) (by decide)
      have hlist := congrArg String.toList h
      rw [toList_spaced_cons, toList_spaced_cons, append_separator_inj (hplain _) (hplain _),
        append_separator_inj part.2.space_not_mem_name part'.2.space_not_mem_name, String.toList_inj,
        String.toList_inj] at hlist
      obtain ⟨hdigits, hname, hrest⟩ := hlist
      have hvalue := congrArg (Nat.ofDigitChars 10 · 0) hdigits
      have hamount : part.1 = part'.1 := by
        rw [← Digits.value_ofNat part.1, ← Digits.value_ofNat part'.1]
        exact hvalue
      rw [Prod.ext hamount (TimeUnit.name_injective hname), ih hrest]

theorem toList_intercalate_ne_nil (hne : parts ≠ []) :
    (" ".intercalate (parts.map partText)).toList ≠ [] := by
  obtain ⟨part, parts, rfl⟩ := List.exists_cons_of_ne_nil hne
  intro hnil
  have hlist := congrArg String.toList (spaced_eq hne)
  rw [toList_spaced_cons, String.toList_append, hnil] at hlist
  have hlength := congrArg List.length hlist
  simp only [List.length_append, List.length_cons, List.length_nil] at hlength
  have hspace : " ".toList.length = 1 := rfl
  omega

/-- The text of the parts gives them back. -/
theorem intercalate_injective
    (h : " ".intercalate (parts.map partText) = " ".intercalate (parts'.map partText)) : parts = parts' := by
  rcases eq_or_ne parts [] with rfl | hne
  · rcases eq_or_ne parts' [] with rfl | hne'
    · rfl
    · refine absurd ?_ (toList_intercalate_ne_nil hne')
      rw [← h]
      simp
  · rcases eq_or_ne parts' [] with rfl | hne'
    · refine absurd ?_ (toList_intercalate_ne_nil hne)
      rw [h]
      simp
    · refine spaced_injective ?_
      rw [spaced_eq hne, spaced_eq hne', h]

theorem head_intercalate {c : Char} (hc : c ∈ (" ".intercalate (parts.map partText)).toList.head?) :
    c.isDigit = true := by
  cases parts with
  | nil => simp at hc
  | cons part parts =>
    have hlist := congrArg String.toList (spaced_eq (List.cons_ne_nil part parts))
    have hne := toList_intercalate_ne_nil (List.cons_ne_nil part parts)
    rw [toList_spaced_cons, String.toList_append] at hlist
    have hhead := congrArg List.head? hlist
    rw [List.head?_append_of_ne_nil _ (Digits.ofNat_ne_nil _), List.head?_append_of_ne_nil _ hne] at hhead
    rw [← hhead] at hc
    exact (Digits.ofNat part.1).isDigit c (List.mem_of_mem_head? hc)

theorem exists_unit_intercalate (hne : parts ≠ []) :
    ∃ front, ∃ unit : TimeUnit,
      (" ".intercalate (parts.map partText)).toList = front ++ unit.name.toList := by
  induction parts with
  | nil => exact absurd rfl hne
  | cons part parts ih =>
    cases parts with
    | nil =>
      refine ⟨(Digits.ofNat part.1).text ++ [' '], part.2, ?_⟩
      rw [List.map_singleton, String.intercalate_singleton, toList_partText, List.append_assoc]
      rfl
    | cons next parts =>
      obtain ⟨front, unit, hfront⟩ := ih (List.cons_ne_nil _ _)
      refine ⟨(partText part ++ " ").toList ++ front, unit, ?_⟩
      rw [List.map_cons, List.map_cons, String.intercalate_cons_cons, ← List.map_cons, String.toList_append,
        hfront, List.append_assoc]

/-- What is appended part by part and trimmed is the text of the parts. -/
theorem trim_spaced (parts : List (Nat × TimeUnit)) :
    trim (spaced parts) = " ".intercalate (parts.map partText) := by
  rcases eq_or_ne parts [] with rfl | hne
  · decide
  · rw [spaced_eq hne]
    refine trim_append_space (toList_intercalate_ne_nil hne) ?_ ?_
    · intro c hc
      have hdigit := head_intercalate hc
      rw [Char.isDigit, Bool.and_eq_true, decide_eq_true_eq, decide_eq_true_eq] at hdigit
      exact Nat.lt_of_lt_of_le (by decide : 32 < '0'.toNat) (UInt32.le_iff_toNat_le.mp hdigit.1)
    · intro c hc
      obtain ⟨front, unit, hfront⟩ := exists_unit_intercalate hne
      have hname : unit.name.toList ≠ [] := by cases unit <;> decide
      rw [hfront, List.getLast?_append_of_ne_nil _ hname] at hc
      revert hc
      cases unit <;> rintro ⟨⟩ <;> decide

end text

namespace Timespan

/-- An amount that is not zero. -/
def nonzero (n : Nat) : Option Nat := if n = 0 then none else some n

theorem getD_nonzero (n : Nat) : (nonzero n).getD 0 = n := by
  rw [nonzero]
  split
  · rename_i hzero
    rw [hzero, Option.getD_none]
  · rw [Option.getD_some]

theorem mem_nonzero {n m : Nat} (h : m ∈ nonzero n) : m = n ∧ n ≠ 0 := by
  rw [nonzero] at h
  split at h
  · cases h
  · rename_i hne
    exact ⟨(Option.some.inj h).symm, hne⟩

/-- The hours, minutes and seconds of a number of seconds. -/
def ofSeconds (n : Nat) : Timespan where
  hours := nonzero (n / 60 / 60)
  minutes := nonzero (n / 60 % 60)
  seconds := nonzero (n % 60)
  minutes_lt m hm := (mem_nonzero hm).1 ▸ Nat.mod_lt _ (by decide)
  seconds_lt s hs := (mem_nonzero hs).1 ▸ Nat.mod_lt _ (by decide)

theorem total_ofSeconds (n : Nat) : (ofSeconds n).total = n := by
  rw [total, ofSeconds]
  simp only [getD_nonzero]
  omega

/-- Less than a second has no parts. -/
theorem parts_ofSeconds_eq_nil_iff {n : Nat} : (ofSeconds n).parts = [] ↔ n = 0 := by
  constructor
  · intro hnil
    have htotal := (ofSeconds n).total_eq
    rw [hnil, total_ofSeconds] at htotal
    exact htotal
  · rintro rfl
    rfl

theorem amount_ne_zero {n : Nat} {part : Nat × TimeUnit} (h : part ∈ (ofSeconds n).parts) : part.1 ≠ 0 := by
  simp only [parts, ofSeconds, List.mem_append, List.mem_map, Option.mem_toList] at h
  rcases h with (⟨amount, hamount, rfl⟩ | ⟨amount, hamount, rfl⟩) | ⟨amount, hamount, rfl⟩ <;>
    exact (mem_nonzero hamount).1 ▸ (mem_nonzero hamount).2

theorem text_eq_iff {span span' : Timespan} : span.text = span'.text ↔ span.parts = span'.parts := by
  refine ⟨intercalate_injective, fun h => ?_⟩
  rw [text, text, h]

theorem text_eq_empty_iff {span : Timespan} : span.text = "" ↔ span.parts = [] := by
  constructor
  · intro hempty
    by_contra hne
    refine absurd ?_ (toList_intercalate_ne_nil hne)
    rw [← text, hempty]
    rfl
  · intro hnil
    rw [text, hnil]
    rfl

end Timespan

namespace Statistics

open Timespan

theorem spaced_append (parts parts' : List (Nat × TimeUnit)) :
    spaced (parts ++ parts') = spaced parts ++ spaced parts' := by
  rw [spaced, List.map_append, String.join_append]
  rfl

/-- What is appended for one of the amounts. -/
theorem spaced_nonzero (n : Nat) (unit : TimeUnit) : spaced ((nonzero n).toList.map (·, unit)) =
    if (n : Int) > 0 then toString (n : Int) ++ (" " ++ unit.name ++ " ") else "" := by
  rw [nonzero]
  by_cases hzero : n = 0
  · rw [if_pos hzero, if_neg (by omega)]
    rfl
  · have hcast : toString (n : Int) = toString n := rfl
    rw [if_neg hzero, if_pos (by omega), hcast]
    simp [spaced, partText, String.append_assoc]

/-- The text of a time is that of the parts of its whole seconds, but for zero. -/
theorem readableTimespan_eq {milliseconds : Int} (hpos : 0 < milliseconds) :
    readableTimespan milliseconds = (ofSeconds (milliseconds / 1000).toNat).text := by
  obtain ⟨n, hn⟩ := Int.eq_ofNat_of_zero_le (by omega : 0 ≤ milliseconds / 1000)
  have hseconds : milliseconds.tdiv 1000 = n := by rw [Int.tdiv_eq_ediv_of_nonneg hpos.le, hn]
  have hhours : ((n : Int).tdiv 60).tdiv 60 = (n / 60 / 60 : Nat) := rfl
  have hminutes : ((n : Int).tdiv 60).tmod 60 = (n / 60 % 60 : Nat) := rfl
  have hrest : (n : Int).tmod 60 = (n % 60 : Nat) := rfl
  rw [readableTimespan, if_neg hpos.ne', hn, Int.toNat_natCast, Timespan.text, ← trim_spaced, Timespan.parts,
    spaced_append, spaced_append]
  simp only [hseconds, hhours, hminutes, hrest, ofSeconds, spaced_nonzero]
  rfl

/-- A time is told by a text that is not empty and that means its whole seconds. -/
def Denoted (milliseconds : Int) : Prop :=
  ∃ span : Timespan, readableTimespan milliseconds = span.text ∧ span.text ≠ "" ∧
    (span.total : Int) = milliseconds / 1000

/-- Two times are told by one text exactly when they agree in whole seconds. -/
def ToldBySeconds (milliseconds milliseconds' : Int) : Prop :=
  readableTimespan milliseconds = readableTimespan milliseconds' ↔ milliseconds / 1000 = milliseconds' / 1000

/-- No second, which is the text of zero. -/
def noSecond : Timespan := ⟨none, none, some 0, by simp, by simp⟩

theorem readableTimespan_zero : readableTimespan 0 = noSecond.text := rfl

theorem denoted_iff {milliseconds : Int} (hlo : 0 ≤ milliseconds) :
    Denoted milliseconds ↔ milliseconds = 0 ∨ 1000 ≤ milliseconds := by
  rcases hlo.eq_or_lt with rfl | hpos
  · exact iff_of_true ⟨noSecond, readableTimespan_zero, by decide, rfl⟩ (.inl rfl)
  · have htext := readableTimespan_eq hpos
    constructor
    · rintro ⟨span, hspan, hne, -⟩
      rw [← hspan, htext, ne_eq, text_eq_empty_iff, parts_ofSeconds_eq_nil_iff] at hne
      omega
    · intro h
      refine ⟨_, htext, ?_, ?_⟩
      · rw [ne_eq, text_eq_empty_iff, parts_ofSeconds_eq_nil_iff]
        omega
      · rw [total_ofSeconds]
        omega

/-- The text of zero is that of no other time. -/
theorem readableTimespan_ne_zero {milliseconds : Int} (hpos : 0 < milliseconds) :
    readableTimespan milliseconds ≠ readableTimespan 0 := by
  rw [readableTimespan_eq hpos, readableTimespan_zero, ne_eq, text_eq_iff]
  intro hparts
  have hmem : (0, TimeUnit.sec) ∈ (ofSeconds (milliseconds / 1000).toNat).parts :=
    hparts ▸ List.mem_singleton_self _
  exact amount_ne_zero hmem rfl

theorem toldBySeconds_of_pos {milliseconds milliseconds' : Int} (hpos : 0 < milliseconds)
    (hpos' : 0 < milliseconds') : ToldBySeconds milliseconds milliseconds' := by
  rw [ToldBySeconds, readableTimespan_eq hpos, readableTimespan_eq hpos', text_eq_iff]
  constructor
  · intro hparts
    have htotal : (ofSeconds (milliseconds / 1000).toNat).total =
        (ofSeconds (milliseconds' / 1000).toNat).total := by
      rw [total_eq, total_eq, hparts]
    rw [total_ofSeconds, total_ofSeconds] at htotal
    omega
  · intro hseconds
    rw [hseconds]

/-- Readable time spans denote the time, but for those of less than a second that are not zero. -/
theorem readableTimespan_denotes_iff {milliseconds milliseconds' : Int} (hlo : 0 ≤ milliseconds)
    (hlo' : 0 ≤ milliseconds') :
    (Denoted milliseconds ↔ milliseconds = 0 ∨ 1000 ≤ milliseconds) ∧
      (ToldBySeconds milliseconds milliseconds' ↔
        (milliseconds = 0 → milliseconds' = 0 ∨ 1000 ≤ milliseconds') ∧
          (milliseconds' = 0 → milliseconds = 0 ∨ 1000 ≤ milliseconds)) := by
  refine ⟨denoted_iff hlo, ?_⟩
  rcases hlo.eq_or_lt with rfl | hpos
  · rcases hlo'.eq_or_lt with rfl | hpos'
    · exact iff_of_true ⟨fun _ => rfl, fun _ => rfl⟩ ⟨fun _ => .inl rfl, fun _ => .inl rfl⟩
    · have hne := (readableTimespan_ne_zero hpos').symm
      rw [ToldBySeconds, iff_false_left hne]
      omega
  · rcases hlo'.eq_or_lt with rfl | hpos'
    · have hne := readableTimespan_ne_zero hpos
      rw [ToldBySeconds, iff_false_left hne]
      omega
    · refine iff_of_true (toldBySeconds_of_pos hpos hpos') ⟨?_, ?_⟩ <;> omega

/-- Two hours, one minute and five seconds, with or without a fraction. -/
theorem readableTimespan_denotes_twoHours : Denoted 7265000 ∧ ToldBySeconds 7265000 7265999 := by
  obtain ⟨hdenoted, hseconds⟩ := readableTimespan_denotes_iff (by decide : (0 : Int) ≤ 7265000)
    (by decide : (0 : Int) ≤ 7265999)
  exact ⟨hdenoted.mpr (.inr (by decide)),
    hseconds.mpr ⟨fun h => absurd h (by decide), fun h => absurd h (by decide)⟩⟩

/-- Half a second has no text at all, which is not the text of zero. -/
theorem not_denoted_halfSecond :
    readableTimespan 500 = "" ∧ ¬ Denoted 500 ∧ readableTimespan 0 = "0 sec" ∧ ¬ ToldBySeconds 0 500 := by
  have hempty : readableTimespan 500 = "" := by decide
  have hzero : readableTimespan 0 = "0 sec" := rfl
  refine ⟨hempty, ?_, hzero, ?_⟩
  · rintro ⟨span, hspan, hne, -⟩
    exact hne (hspan ▸ hempty)
  · intro hseconds
    have hsame := hseconds.mpr rfl
    rw [hempty, hzero] at hsame
    exact absurd hsame (by decide)

end Statistics

end drelephant.math
