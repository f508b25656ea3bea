import Mathlib.Data.List.DropRight
import DrElephant.Java.DecimalLiteral
import DrElephant.Util.MemoryFormatUtils

open ieee java.lang java.lang.Double regex drelephant.math

namespace drelephant.util.MemoryFormatUtils

/-- A number, white space, and the letters of a unit, any of which may be missing. -/
structure MemoryText where
  number : DecimalLiteral
  space : List Char
  letter : Option Char
  b : Option Char
  isSpace : ∀ c ∈ space, MemoryFormatUtils.isSpace c = true
  letter_mem : ∀ c ∈ letter, c.toUpper ∈ ['K', 'M', 'G', 'T']
  b_eq : ∀ c ∈ b, c.toUpper = 'B'

theorem forall_mem_some {p : Char → Prop} {c : Char} (h : p c) : ∀ a ∈ some c, p a := by
  intro a ha
  exact Option.mem_some.mp ha ▸ h

theorem isSpace_blank : ∀ c ∈ [' '], isSpace c = true := List.forall_mem_singleton.mpr rfl

theorem toUpper_B : ∀ c ∈ some 'B', c.toUpper = 'B' := forall_mem_some rfl

namespace MemoryText

variable (memory : MemoryText)

def text : List Char := memory.number.text ++ (memory.space ++ (memory.letter.toList ++ memory.b.toList))

/-- The bytes of the unit. -/
def unitBytes : Int :=
  match memory.letter.map Char.toUpper with
  | some 'K' => 2 ^ 10
  | some 'M' => 2 ^ 20
  | some 'G' => 2 ^ 30
  | some 'T' => 2 ^ 40
  | _ => 1

/-- The double next to the number is less than zero. -/
def IsNegative : Prop := memory.number.double.lt (.finite 0) = true

instance : Decidable memory.IsNegative := inferInstanceAs (Decidable (_ = true))

end MemoryText

section language

theorem matches_sign_iff {text : List Char} :
    (Regex.optional (.set isSign)).Matches text ↔ ∃ sign : Sign, text = sign.text := by
  constructor
  · rintro (rfl | ⟨c, hc, rfl⟩)
    · exact ⟨.absent, rfl⟩
    · rw [isSign, Bool.or_eq_true, beq_iff_eq, beq_iff_eq] at hc
      rcases hc with rfl | rfl
      · exact ⟨.minus, rfl⟩
      · exact ⟨.plus, rfl⟩
  · rintro ⟨sign, rfl⟩
    cases sign with
    | absent => exact .inl rfl
    | plus => exact .inr ⟨'+', rfl, rfl⟩
    | minus => exact .inr ⟨'-', rfl, rfl⟩

theorem matches_digits_iff {text : List Char} :
    (Regex.plus isDigit).Matches text ↔ ∃ digits : Digits, digits.text ≠ [] ∧ text = digits.text := by
  rw [Regex.matches_plus_iff]
  constructor
  · rintro ⟨hne, hdigits⟩
    exact ⟨⟨text, hdigits⟩, hne, rfl⟩
  · rintro ⟨digits, hne, rfl⟩
    exact ⟨hne, digits.isDigit⟩

theorem oneOf_E_iff {c : Char} : oneOf ['E'] c = true ↔ c = 'e' ∨ c = 'E' := by
  rw [oneOf, List.contains_iff_mem, List.mem_singleton]
  constructor
  · intro h
    unfold Char.toUpper at h
    split at h
    · have hval := congrArg Char.val h
      have hlower : c.val = 'E'.val - ('A'.val - 'a'.val) := UInt32.eq_sub_iff_add_eq.mpr hval
      refine .inl (Char.ext ?_)
      rw [hlower]
      rfl
    · exact .inr h
  · rintro (rfl | rfl) <;> rfl

theorem matches_exponent_iff {text : List Char} :
    (Regex.optional (.all [.set (oneOf ['E']), .optional (.set isSign), .plus isDigit])).Matches text ↔
      ∃ exponent : Option Exponent, text = exponent.elim [] Exponent.text := by
  constructor
  · rintro (rfl | ⟨_, _, rfl, ⟨mark, hc, rfl⟩, signText, digitsText, rfl, hsign, hdigits⟩)
    · exact ⟨none, rfl⟩
    · obtain ⟨sign, rfl⟩ := matches_sign_iff.mp hsign
      obtain ⟨digits, hne, rfl⟩ := matches_digits_iff.mp hdigits
      exact ⟨some ⟨mark, oneOf_E_iff.mp hc, sign, digits, hne⟩, rfl⟩
  · rintro ⟨exponent, rfl⟩
    cases exponent with
    | none => exact .inl rfl
    | some exponent =>
      exact .inr ⟨[exponent.mark], _, rfl, ⟨_, oneOf_E_iff.mpr exponent.mark_eq, rfl⟩, _, _, rfl,
        matches_sign_iff.mpr ⟨exponent.sign, rfl⟩,
        matches_digits_iff.mpr ⟨exponent.digits, exponent.digits_ne_nil, rfl⟩⟩

/-- The pattern of the numbers is the one of decimal literals. -/
theorem matches_number_iff {text : List Char} :
    number.Matches text ↔ ∃ literal : DecimalLiteral, text = literal.text := by
  constructor
  · rintro ⟨signText, _, rfl, hsign, wholeText, _, rfl, hwhole, pointText, _, rfl, hpoint,
      digitsText, exponentText, rfl, hdigits, hexponent⟩
    obtain ⟨sign, rfl⟩ := matches_sign_iff.mp hsign
    obtain ⟨digits, hne, rfl⟩ := matches_digits_iff.mp hdigits
    obtain ⟨exponent, rfl⟩ := matches_exponent_iff.mp hexponent
    rcases hpoint with rfl | ⟨c, hc, rfl⟩
    · -- Without a point the digits on its both sides are those of one whole number.
      have hall : ∀ c ∈ wholeText ++ digits.text, c.isDigit = true := by
        intro c hc
        rcases List.mem_append.mp hc with hc | hc
        · exact hwhole c hc
        · exact digits.isDigit c hc
      refine ⟨⟨sign, ⟨wholeText ++ digits.text, hall⟩, none, exponent, ?_, by simp⟩, ?_⟩
      · intro _ hnil
        exact hne (List.append_eq_nil_iff.mp hnil).2
      · simp [DecimalLiteral.text, DecimalLiteral.body, DecimalLiteral.fractionText,
          DecimalLiteral.exponentText]
    · obtain rfl := eq_of_beq hc
      refine ⟨⟨sign, ⟨wholeText, hwhole⟩, some digits, exponent, by simp, ?_⟩, ?_⟩
      · intro fraction hfraction
        cases Option.mem_some.mp hfraction
        exact hne
      · simp [DecimalLiteral.text, DecimalLiteral.body, DecimalLiteral.fractionText,
          DecimalLiteral.exponentText]
  · rintro ⟨literal, rfl⟩
    have hsign := matches_sign_iff.mpr ⟨literal.sign, rfl⟩
    have hexponent := matches_exponent_iff.mpr ⟨literal.exponent, rfl⟩
    cases hfraction : literal.fraction with
    | none =>
      have hdigits := matches_digits_iff.mpr ⟨literal.whole, literal.whole_ne_nil hfraction, rfl⟩
      refine ⟨_, _, ?_, hsign, [], _, rfl, by simp [Regex.Matches], [], _, rfl, .inl rfl, _, _, rfl, hdigits,
        hexponent⟩
      simp [DecimalLiteral.text, DecimalLiteral.body, DecimalLiteral.fractionText,
        DecimalLiteral.exponentText, hfraction]
    | some digits =>
      have hdigits := matches_digits_iff.mpr ⟨digits, literal.fraction_ne_nil digits hfraction, rfl⟩
      refine ⟨_, _, ?_, hsign, _, _, rfl, literal.whole.isDigit, ['.'], _, rfl, .inr ⟨'.', rfl, rfl⟩, _, _,
        rfl, hdigits, hexponent⟩
      simp [DecimalLiteral.text, DecimalLiteral.body, DecimalLiteral.fractionText,
        DecimalLiteral.exponentText, hfraction]

end language

section decomposition

/-- The text of a unit as the pattern has it, which need not be the name of one. -/
def UnitText (text : List Char) : Prop :=
  ∃ letter b : Option Char, text = letter.toList ++ b.toList ∧
    (∀ c ∈ letter, c.toUpper ∈ ['T', '|', 'G', '|', 'M', '|', 'K']) ∧ ∀ c ∈ b, c.toUpper = 'B'

theorem matches_unit_iff {text : List Char} : unit.Matches text ↔ UnitText text := by
  have hoptional : ∀ {characters text : List Char},
      (Regex.optional (.set (oneOf characters))).Matches text ↔
        ∃ c : Option Char, text = c.toList ∧ ∀ a ∈ c, a.toUpper ∈ characters := by
    intro characters text
    constructor
    · rintro (rfl | ⟨c, hc, rfl⟩)
      · exact ⟨none, rfl, by simp⟩
      · exact ⟨some c, rfl, by simpa [oneOf] using hc⟩
    · rintro ⟨c, rfl, hc⟩
      cases c with
      | none => exact .inl rfl
      | some c => exact .inr ⟨c, List.contains_iff_mem.mpr (hc c rfl), rfl⟩
  constructor
  · rintro ⟨_, _, rfl, hletter, hb⟩
    obtain ⟨letter, rfl, hmem⟩ := hoptional.mp hletter
    obtain ⟨b, rfl, hB⟩ := hoptional.mp hb
    exact ⟨letter, b, rfl, hmem, fun c hc => List.mem_singleton.mp (hB c hc)⟩
  · rintro ⟨letter, b, rfl, hmem, hB⟩
    exact ⟨_, _, rfl, hoptional.mpr ⟨letter, rfl, hmem⟩,
      hoptional.mpr ⟨b, rfl, fun c hc => List.mem_singleton.mpr (hB c hc)⟩⟩

theorem matches_unit_nil : unit.Matches [] := ⟨[], [], rfl, .inl rfl, .inl rfl⟩

/-- A unit has neither digits nor white space in it. -/
theorem UnitText.plain {text : List Char} (h : UnitText text) {c : Char} (hc : c ∈ text) :
    c.isDigit = false ∧ isSpace c = false := by
  obtain ⟨letter, b, rfl, hletter, hb⟩ := h
  have hupper : c.toUpper ∈ ['T', '|', 'G', 'M', 'K', 'B'] := by
    rcases List.mem_append.mp hc with hc | hc
    · have hmem := hletter c (Option.mem_toList.mp hc)
      simp only [List.mem_cons, List.not_mem_nil, or_false] at hmem ⊢
      tauto
    · rw [hb c (Option.mem_toList.mp hc)]
      decide
  constructor
  · by_contra hdigit
    rw [Bool.not_eq_false, Char.isDigit, Bool.and_eq_true, decide_eq_true_eq, decide_eq_true_eq] at hdigit
    have hlow : ¬ (c.val ≥ 'a'.val ∧ c.val ≤ 'z'.val) := by
      rintro ⟨ha, -⟩
      have hle : 'a'.val ≤ '9'.val := UInt32.le_trans ha hdigit.2
      exact absurd hle (by decide)
    have hself : c.toUpper = c := dif_neg hlow
    rw [hself] at hupper
    simp only [List.mem_cons, List.not_mem_nil, or_false] at hupper
    rcases hupper with rfl | rfl | rfl | rfl | rfl | rfl <;> exact absurd hdigit (by decide)
  · by_contra hspace
    rw [Bool.not_eq_false, isSpace, List.contains_iff_mem] at hspace
    simp only [List.mem_cons, List.not_mem_nil, or_false] at hspace
    rcases hspace with rfl | rfl | rfl | rfl | rfl | rfl <;> exact absurd hupper (by decide)

/-- The parts of a matching text, each of which can be told by its characters. -/
structure Parts (text : List Char) where
  literal : DecimalLiteral
  space : List Char
  unitText : List Char
  text_eq : text = literal.text ++ (space ++ unitText)
  isSpace : ∀ c ∈ space, MemoryFormatUtils.isSpace c = true
  unit : UnitText unitText

variable {text : List Char}

theorem Parts.rest_plain (parts : Parts text) {c : Char} (hc : c ∈ parts.space ++ parts.unitText) :
    c.isDigit = false := by
  rcases List.mem_append.mp hc with hspace | hunit
  · have hmem := parts.isSpace c hspace
    rw [MemoryFormatUtils.isSpace, List.contains_iff_mem] at hmem
    simp only [List.mem_cons, List.not_mem_nil, or_false] at hmem
    rcases hmem with rfl | rfl | rfl | rfl | rfl | rfl <;> rfl
  · exact (parts.unit.plain hunit).1

/-- The number goes up to the last digit. -/
theorem Parts.literal_text (parts : Parts text) :
    parts.literal.text = text.rdropWhile fun c => !c.isDigit := by
  obtain ⟨front, c, hfront, hc⟩ := parts.literal.text_eq_append
  have hrest : ∀ c ∈ (parts.space ++ parts.unitText).reverse, (!c.isDigit) = true := by
    intro c hc
    rw [parts.rest_plain (List.mem_reverse.mp hc)]
    rfl
  have hdrop : (parts.literal.text ++ (parts.space ++ parts.unitText)).rdropWhile (fun c => !c.isDigit) =
      parts.literal.text := by
    rw [List.rdropWhile, List.reverse_append, List.dropWhile_append_of_pos hrest, hfront,
      List.reverse_concat, List.dropWhile_cons, hc]
    simp
  rw [← parts.text_eq] at hdrop
  exact hdrop.symm

/-- The white space goes up to the unit. -/
theorem Parts.space_eq (parts : Parts text) :
    parts.space = (text.drop parts.literal.text.length).takeWhile MemoryFormatUtils.isSpace := by
  have hunit : parts.unitText.takeWhile MemoryFormatUtils.isSpace = [] := by
    rw [List.takeWhile_eq_nil_iff]
    intro hlength hspace
    rw [(parts.unit.plain (List.get_mem _ _)).2] at hspace
    cases hspace
  have hdrop : (parts.literal.text ++ (parts.space ++ parts.unitText)).drop parts.literal.text.length =
      parts.space ++ parts.unitText := List.drop_left
  rw [← parts.text_eq] at hdrop
  rw [hdrop, List.takeWhile_append_of_pos parts.isSpace, hunit, List.append_nil]

/-- A text has its parts in one way only. -/
theorem Parts.unique (parts parts' : Parts text) :
    parts.literal.text = parts'.literal.text ∧ parts.unitText = parts'.unitText := by
  have hliteral : parts.literal.text = parts'.literal.text := by
    rw [parts.literal_text, parts'.literal_text]
  have hspace : parts.space = parts'.space := by rw [parts.space_eq, parts'.space_eq, hliteral]
  have htext := parts.text_eq.symm.trans parts'.text_eq
  rw [hliteral, hspace, List.append_cancel_left_eq, List.append_cancel_left_eq] at htext
  exact ⟨hliteral, htext⟩

theorem matches_iff : REGEX_MATCHER.Matches text ↔ Nonempty (Parts text) := by
  constructor
  · rintro ⟨_, _, rfl, hnumber, space, unitText, rfl, hspace, hunit⟩
    obtain ⟨literal, rfl⟩ := matches_number_iff.mp hnumber
    have hunitText : unit.Matches unitText := by
      rcases hunit with rfl | hunit
      · exact matches_unit_nil
      · exact hunit
    exact ⟨⟨literal, space, unitText, rfl, hspace, matches_unit_iff.mp hunitText⟩⟩
  · rintro ⟨parts⟩
    exact ⟨_, _, parts.text_eq, matches_number_iff.mpr ⟨parts.literal, rfl⟩, _, _, rfl, parts.isSpace,
      .inr (matches_unit_iff.mpr parts.unit)⟩

/-- The groups of a match are its number and its unit, which may be empty but always takes part. -/
theorem exists_parts_of_fullMatch {found : Match} (h : REGEX_MATCHER.fullMatch text = some found) :
    ∃ parts : Parts text, found.group 1 = some parts.literal.text ∧ found.group 2 = some parts.unitText := by
  obtain ⟨left, hleft, right, hright, hgroups⟩ := Regex.exists_of_fullMatch_seq h
  obtain ⟨htext, hnumber⟩ := Regex.mem_attempts_iff.mp ⟨left, hleft, rfl, rfl⟩
  obtain ⟨space, hspace, last, hlast, hlastGroups⟩ := Regex.exists_of_fullMatch_seq hright
  obtain ⟨hrest, hisSpace⟩ := Regex.mem_attempts_iff.mp ⟨space, hspace, rfl, rfl⟩
  have hgroup : (Regex.group 2 unit).fullMatch space.rest = some last := by
    have hempty : (Regex.group 2 unit).Matches [] := matches_unit_nil
    rw [← Regex.fullMatch_optional hempty]
    exact hlast
  obtain ⟨hmatched, hunit⟩ := Regex.matches_of_fullMatch hgroup
  obtain ⟨literal, hliteral⟩ := matches_number_iff.mp hnumber
  have hgroups : found.groups = [(1, literal.text), (2, space.rest)] := by
    rw [hgroups, hlastGroups, Regex.exists_of_mem_attempts_group rfl hleft,
      Regex.groups_eq_nil rfl hspace,
      Regex.exists_of_mem_attempts_group rfl (List.mem_of_find?_eq_some hgroup), hmatched, hliteral]
    rfl
  refine ⟨⟨literal, space.matched, space.rest, ?_, hisSpace, matches_unit_iff.mp hunit⟩, ?_, ?_⟩
  · rw [htext, hliteral, ← hrest]
  · rw [Match.group, hgroups]
    rfl
  · rw [Match.group, hgroups]
    rfl

end decomposition

section evaluation

/-- The unit that a text names, the last letter of which may be missing. -/
def unitNamed (unitText : List Char) : Option MemoryUnit :=
  let unitPart := unitText.map Char.toUpper
  let unitPart := String.ofList (if unitPart.getLast? = some 'B' then unitPart else unitPart ++ ['B'])
  UNITS.find? fun unit => unit.name == unitPart

variable (formats : NumberFormats) {text : String}

/-- What is left to do when a text matches. -/
theorem stringToBytes_parts (parts : Parts text.toList) : stringToBytes formats (some text) =
    if parts.literal.double.lt (.finite 0) then
      .error (.illegalArgument ("The number part of the memory cannot be less than zero: [" ++
        formats.doubleToString parts.literal.double ++ "]."))
    else
      let unitPart := parts.unitText.map Char.toUpper
      let unitPart := String.ofList (if unitPart.getLast? = some 'B' then unitPart else unitPart ++ ['B'])
      match unitNamed parts.unitText with
      | some unit => .ok (parts.literal.double.mul (.ofInt unit.bytes)).toLong
      | none => .error (.illegalArgument ("The formatted string [" ++ text ++ "] 's unit part [" ++
          unitPart ++ "] does not match any unit. The supported units are (case-insensitive, and " ++
          "also the 'B' is ignorable): [" ++ String.join (UNITS.map MemoryUnit.name) ++ "].")) := by
  obtain ⟨found, hfound⟩ := Option.isSome_iff_exists.mp
    (Regex.isSome_fullMatch_iff.mpr (matches_iff.mpr ⟨parts⟩))
  obtain ⟨parts', hnumber, hunit⟩ := exists_parts_of_fullMatch hfound
  obtain ⟨hliteral, hunitText⟩ := parts.unique parts'
  have hparse : Double.parseDouble (String.ofList parts'.literal.text) = some parts.literal.double := by
    rw [← hliteral]
    exact DecimalLiteral.parseDouble_text
  rw [← hunitText] at hunit
  simp only [stringToBytes, hfound, hnumber, hunit, dereference_some]
  simp only [bind, Except.bind, hparse, Option.elim_some]
  rfl

/-- A text that does not match is refused. -/
theorem stringToBytes_of_not_parts (h : ¬ Nonempty (Parts text.toList)) :
    ∃ message, stringToBytes formats (some text) = .error (.illegalArgument message) := by
  have hnone : REGEX_MATCHER.fullMatch text.toList = none := by
    rw [← Option.not_isSome_iff_eq_none, Regex.isSome_fullMatch_iff, matches_iff]
    exact h
  simp only [stringToBytes, hnone]
  exact ⟨_, rfl⟩

theorem unitNamed_letter {letter b : Option Char} (hletter : ∀ c ∈ letter, c.toUpper ≠ 'B')
    (hb : ∀ c ∈ b, c.toUpper = 'B') : unitNamed (letter.toList ++ b.toList) =
      UNITS.find? fun unit => unit.name == String.ofList ((letter.map Char.toUpper).toList ++ ['B']) := by
  have hname : (if ((letter.toList ++ b.toList).map Char.toUpper).getLast? = some 'B' then
        (letter.toList ++ b.toList).map Char.toUpper
      else (letter.toList ++ b.toList).map Char.toUpper ++ ['B']) =
      (letter.map Char.toUpper).toList ++ ['B'] := by
    cases b with
    | some c => cases letter <;> simp [hb c rfl]
    | none =>
      cases letter with
      | none => rfl
      | some c => simp [hletter c rfl]
  simp only [unitNamed, hname]

theorem exists_unitNamed (memory : MemoryText) :
    ∃ unit, unitNamed (memory.letter.toList ++ memory.b.toList) = some unit ∧ unit.bytes = memory.unitBytes := by
  have hletter : ∀ c ∈ memory.letter, c.toUpper ≠ 'B' := by
    intro c hc hB
    have hmem := memory.letter_mem c hc
    rw [hB] at hmem
    exact absurd hmem (by decide)
  rw [unitNamed_letter hletter memory.b_eq, MemoryText.unitBytes]
  cases hcase : memory.letter with
  | none => exact ⟨⟨"B", 1⟩, rfl, rfl⟩
  | some c =>
    have hmem := memory.letter_mem c hcase
    simp only [List.mem_cons, List.not_mem_nil, or_false] at hmem
    rw [Option.map_some]
    rcases hmem with hK | hM | hG | hT
    · rw [hK]
      exact ⟨⟨"KB", 2 ^ 10⟩, rfl, rfl⟩
    · rw [hM]
      exact ⟨⟨"MB", 2 ^ 20⟩, rfl, rfl⟩
    · rw [hG]
      exact ⟨⟨"GB", 2 ^ 30⟩, rfl, rfl⟩
    · rw [hT]
      exact ⟨⟨"TB", 2 ^ 40⟩, rfl, rfl⟩

/-- The pattern takes a bar for a letter, but no unit has one in its name. -/
theorem UnitText.letter_mem {letter b : Option Char}
    (hletter : ∀ c ∈ letter, c.toUpper ∈ ['T', '|', 'G', '|', 'M', '|', 'K']) (hb : ∀ c ∈ b, c.toUpper = 'B')
    (hunit : (unitNamed (letter.toList ++ b.toList)).isSome = true) :
    ∀ c ∈ letter, c.toUpper ∈ ['K', 'M', 'G', 'T'] := by
  intro c hc
  have hmem := hletter c hc
  have hplain : ∀ a ∈ letter, a.toUpper ≠ 'B' := by
    intro a ha hB
    have hmem := hletter a ha
    rw [hB] at hmem
    exact absurd hmem (by decide)
  have hbar : c.toUpper ≠ '|' := by
    intro hbar
    rw [unitNamed_letter hplain hb, Option.mem_def.mp hc, Option.map_some, hbar] at hunit
    exact absurd hunit (by decide)
  simp only [List.mem_cons, List.not_mem_nil, or_false] at hmem ⊢
  tauto

def MemoryText.parts (memory : MemoryText) {text : List Char} (htext : text = memory.text) : Parts text where
  literal := memory.number
  space := memory.space
  unitText := memory.letter.toList ++ memory.b.toList
  text_eq := htext
  isSpace := memory.isSpace
  unit := ⟨memory.letter, memory.b, rfl, by
    intro c hc
    have hmem := memory.letter_mem c hc
    simp only [List.mem_cons, List.not_mem_nil, or_false] at hmem ⊢
    tauto, memory.b_eq⟩

variable (text) in
/-- Nothing but an illegal argument is thrown. -/
theorem exists_message_of_error {exception : JavaException}
    (h : stringToBytes formats (some text) = .error exception) :
    ∃ message, exception = .illegalArgument message := by
  by_cases hparts : Nonempty (Parts text.toList)
  · obtain ⟨parts⟩ := hparts
    rw [stringToBytes_parts formats parts] at h
    split at h
    · exact ⟨_, (Except.error.inj h).symm⟩
    · cases hunit : unitNamed parts.unitText with
      | some unit =>
        rw [hunit] at h
        cases h
      | none =>
        rw [hunit] at h
        exact ⟨_, (Except.error.inj h).symm⟩
  · obtain ⟨message, hmessage⟩ := stringToBytes_of_not_parts formats hparts
    rw [hmessage] at h
    exact ⟨message, (Except.error.inj h).symm⟩

/-- What a memory text is read as. -/
theorem stringToBytes_text (memory : MemoryText) (htext : text.toList = memory.text)
    (h : ¬ memory.IsNegative) :
    stringToBytes formats (some text) = .ok (memory.number.double.mul (.ofInt memory.unitBytes)).toLong := by
  obtain ⟨unit, hunit, hbytes⟩ := exists_unitNamed memory
  have hliteral : (memory.parts htext).literal = memory.number := rfl
  have hunitText : (memory.parts htext).unitText = memory.letter.toList ++ memory.b.toList := rfl
  rw [MemoryText.IsNegative] at h
  rw [stringToBytes_parts formats (memory.parts htext), hliteral, hunitText, if_neg h, hunit, ← hbytes]

/-- The accepted texts are those of memory sizes that are not negative. -/
theorem exists_ok_iff : (∃ bytes, stringToBytes formats (some text) = .ok bytes) ↔
    ∃ memory : MemoryText, text.toList = memory.text ∧ ¬ memory.IsNegative := by
  constructor
  · rintro ⟨bytes, hbytes⟩
    by_cases hparts : Nonempty (Parts text.toList)
    · obtain ⟨parts⟩ := hparts
      rw [stringToBytes_parts formats parts] at hbytes
      split at hbytes
      · cases hbytes
      · rename_i hnonneg
        have hunit : (unitNamed parts.unitText).isSome = true := by
          cases hunit : unitNamed parts.unitText with
          | some unit => rfl
          | none =>
            rw [hunit] at hbytes
            cases hbytes
        obtain ⟨letter, b, hunitText, hletter, hb⟩ := parts.unit
        rw [hunitText] at hunit
        refine ⟨⟨parts.literal, parts.space, letter, b, parts.isSpace,
          UnitText.letter_mem hletter hb hunit, hb⟩, ?_, hnonneg⟩
        rw [MemoryText.text, ← hunitText]
        exact parts.text_eq
    · obtain ⟨message, hmessage⟩ := stringToBytes_of_not_parts formats hparts
      rw [hmessage] at hbytes
      cases hbytes
  · rintro ⟨memory, htext, hnonneg⟩
    exact ⟨_, stringToBytes_text formats memory htext hnonneg⟩

end evaluation

section exactness

/-- A whole number. -/
def wholeNumber (n : Nat) : DecimalLiteral where
  sign := .absent
  whole := .ofNat n
  fraction := none
  exponent := none
  whole_ne_nil _ := Digits.ofNat_ne_nil n
  fraction_ne_nil := by simp

theorem double_wholeNumber (n : Nat) : (wholeNumber n).double = .ofInt n := by
  have hmagnitude : (wholeNumber n).magnitude = ((n : Int) : ℚ) := by
    simp [DecimalLiteral.magnitude, wholeNumber]
  rw [DecimalLiteral.double, hmagnitude]
  rfl

theorem MemoryText.exists_unitBytes_eq (memory : MemoryText) :
    ∃ k : Nat, k ≤ 40 ∧ memory.unitBytes = 2 ^ k := by
  rw [MemoryText.unitBytes]
  split
  · exact ⟨10, by decide, rfl⟩
  · exact ⟨20, by decide, rfl⟩
  · exact ⟨30, by decide, rfl⟩
  · exact ⟨40, by decide, rfl⟩
  · exact ⟨0, by decide, rfl⟩

variable (formats : NumberFormats) {text : String}

/-- Whole numbers of units are read as they are while both fit. -/
theorem stringToBytes_wholeNumber {memory : MemoryText} {n : Nat} (htext : text.toList = memory.text)
    (hnumber : memory.number = wholeNumber n) (hn : n < 2 ^ 53) (hbound : n * memory.unitBytes < 2 ^ 63) :
    stringToBytes formats (some text) = .ok (n * memory.unitBytes) := by
  obtain ⟨k, hk, hunit⟩ := memory.exists_unitBytes_eq
  have habs : |((n : Nat) : Int)| ≤ 2 ^ 53 := by
    rw [Nat.abs_cast]
    exact_mod_cast hn.le
  have hround : roundFinite (n : ℚ) = n := roundFinite_intCast habs
  have hdouble : memory.number.double = .finite n := by
    rw [hnumber, double_wholeNumber, Binary64.ofInt_eq_finite habs]
    rfl
  have hnonneg : ¬ memory.IsNegative := by
    rw [MemoryText.IsNegative, hdouble]
    simp [Binary64.lt, Binary64.le]
  rw [hunit] at hbound ⊢
  have hlt : (n : ℚ) * 2 ^ k < 2 ^ 63 := by exact_mod_cast hbound
  have hpos : (0 : ℚ) ≤ n * 2 ^ k := by positivity
  have hproduct : Binary64.mul (.finite (n : ℚ)) (.ofInt (2 ^ k)) = .finite (n * 2 ^ k) := by
    have hmul := Binary64.mul_ofInt_two_pow (x := n) (k := k) (by omega) (by
      rw [hround, abs_of_nonneg hpos]
      exact hlt.le.trans (by norm_num))
    rwa [hround] at hmul
  have hfloor : ⌊(n : ℚ) * 2 ^ k⌋ = n * 2 ^ k := by exact_mod_cast Int.floor_intCast (n * 2 ^ k : Int)
  rw [stringToBytes_text formats memory htext hnonneg, hdouble, hunit, hproduct,
    Binary64.toLong_finite hpos hlt, hfloor]

/-- The texts that are read are those of the sizes whose numbers are not less
than zero as doubles; any other is an illegal argument. A whole number of units
is read exactly. -/
theorem stringToBytes_exact :
    (∀ formattedString, (∃ bytes, stringToBytes formats formattedString = .ok bytes) ↔
      formattedString = none ∨
        ∃ memory : MemoryText, formattedString = some (String.ofList memory.text) ∧ ¬ memory.IsNegative) ∧
    (∀ formattedString exception, stringToBytes formats formattedString = .error exception →
      ∃ message, exception = .illegalArgument message) ∧
    ∀ (n : Nat) (memory : MemoryText), memory.number = wholeNumber n → n < 2 ^ 53 →
      n * memory.unitBytes < 2 ^ 63 →
      stringToBytes formats (some (String.ofList memory.text)) = .ok (n * memory.unitBytes) := by
  refine ⟨?_, ?_, ?_⟩
  · rintro (_ | text)
    · exact ⟨fun _ => .inl rfl, fun _ => ⟨0, rfl⟩⟩
    · rw [exists_ok_iff]
      constructor
      · rintro ⟨memory, htext, hnonneg⟩
        exact .inr ⟨memory, by rw [← htext, String.ofList_toList], hnonneg⟩
      · rintro (hnone | ⟨memory, htext, hnonneg⟩)
        · cases hnone
        · exact ⟨memory, by rw [Option.some.inj htext, String.toList_ofList], hnonneg⟩
  · rintro (_ | text) exception h
    · cases h
    · exact exists_message_of_error formats text h
  · intro n memory hnumber hn hbound
    exact stringToBytes_wholeNumber formats String.toList_ofList hnumber hn hbound

/-- The text "512 mB". -/
def halfGigabyte : MemoryText where
  number := wholeNumber 512
  space := [' ']
  letter := some 'm'
  b := some 'B'
  isSpace := isSpace_blank
  letter_mem := forall_mem_some (by decide)
  b_eq := toUpper_B

theorem stringToBytes_exact_halfGigabyte :
    stringToBytes ⟨toString, fun _ => "", fun _ => ""⟩ (some "512 mB") = .ok (512 * 2 ^ 20) :=
  (stringToBytes_exact ⟨toString, fun _ => "", fun _ => ""⟩).2.2 512 halfGigabyte rfl (by decide) (by decide)

/-- The text "-1e-400", whose number is next to zero. -/
def tinyNegative : MemoryText where
  number :=
    { sign := .minus
      whole := .ofNat 1
      fraction := none
      exponent := some ⟨'e', .inl rfl, .minus, .ofNat 400, Digits.ofNat_ne_nil 400⟩
      whole_ne_nil := fun _ => Digits.ofNat_ne_nil 1
      fraction_ne_nil := by simp }
  space := []
  letter := none
  b := none
  isSpace := by simp
  letter_mem := by simp
  b_eq := by simp

/-- A negative number that is read. -/
theorem stringToBytes_tinyNegative :
    String.ofList tinyNegative.text = "-1e-400" ∧ tinyNegative.number.sign = .minus ∧
      0 < tinyNegative.number.magnitude ∧
      stringToBytes ⟨toString, fun _ => "", fun _ => ""⟩ (some "-1e-400") = .ok 0 := by
  refine ⟨by decide +kernel, rfl, ?_, by decide +kernel⟩
  rw [DecimalLiteral.magnitude]
  have hwhole : (tinyNegative.number.whole.value : ℚ) = 1 := by
    exact_mod_cast Digits.value_ofNat 1
  rw [hwhole]
  exact mul_pos (add_pos_of_pos_of_nonneg one_pos le_rfl) (zpow_pos (by norm_num) _)

end exactness

end drelephant.util.MemoryFormatUtils
