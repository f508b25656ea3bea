import Mathlib.Data.List.TakeWhile
import DrElephant.Java.Double

open ieee

namespace java.lang.Double

/-- ASCII digits. -/
structure Digits where
  text : List Char
  isDigit : ∀ c ∈ text, c.isDigit = true

namespace Digits

def value (digits : Digits) : Nat := Nat.ofDigitChars 10 digits.text 0

/-- The digits of a number. -/
def ofNat (n : Nat) : Digits where
  text := Nat.toDigits 10 n
  isDigit _ hc := Nat.isDigit_of_mem_toDigits (by decide) (by decide) hc

@[simp] theorem value_ofNat (n : Nat) : (ofNat n).value = n := Nat.ofDigitChars_ten_toDigits

theorem ofNat_ne_nil (n : Nat) : (ofNat n).text ≠ [] := Nat.toDigits_ne_nil

/-- The digits of a number are its text. -/
theorem toList_toString (n : Nat) : (toString n).toList = (ofNat n).text := by
  rw [Nat.toString_eq_repr, Nat.toList_repr]
  rfl

end Digits

inductive Sign
  | absent
  | plus
  | minus
  deriving DecidableEq, Repr

namespace Sign

def text : Sign → List Char
  | absent => []
  | plus => ['+']
  | minus => ['-']

def signed (n : Nat) : Sign → Int
  | absent => n
  | plus => n
  | minus => -n

end Sign

/-- The letter before an exponent and what stands behind it. -/
structure Exponent where
  mark : Char
  mark_eq : mark = 'e' ∨ mark = 'E'
  sign : Sign
  digits : Digits
  digits_ne_nil : digits.text ≠ []

def Exponent.text (exponent : Exponent) : List Char :=
  exponent.mark :: (exponent.sign.text ++ exponent.digits.text)

def Exponent.value (exponent : Exponent) : Int := exponent.sign.signed exponent.digits.value

/-- Digits with an optional point that is followed by at least one digit. -/
structure DecimalLiteral where
  sign : Sign
  whole : Digits
  fraction : Option Digits
  exponent : Option Exponent
  whole_ne_nil : fraction = none → whole.text ≠ []
  fraction_ne_nil : ∀ digits ∈ fraction, digits.text ≠ []

namespace DecimalLiteral

variable (literal : DecimalLiteral)

def fractionText : List Char := literal.fraction.elim [] fun digits => '.' :: digits.text

def exponentText : List Char := literal.exponent.elim [] Exponent.text

/-- The literal without its sign. -/
def body : List Char := literal.whole.text ++ literal.fractionText ++ literal.exponentText

def text : List Char := literal.sign.text ++ literal.body

/-- The number that is written without the sign. -/
def magnitude : ℚ :=
  (literal.whole.value + literal.fraction.elim 0 fun digits => (digits.value : ℚ) / 10 ^ digits.text.length) *
    10 ^ literal.exponent.elim 0 Exponent.value

/-- The double next to the number. -/
def double : Binary64 :=
  match literal.sign with
  | .minus => (Binary64.ofRat literal.magnitude).neg
  | _ => .ofRat literal.magnitude

/-- The characters of a literal. -/
def isNumeral (c : Char) : Bool := c.isDigit || ['.', 'e', 'E', '+', '-'].contains c

variable {literal}

theorem isNumeral_of_isDigit {c : Char} (h : c.isDigit = true) : isNumeral c = true := by
  rw [isNumeral, h, Bool.true_or]

theorem isNumeral_of_mem_sign {sign : Sign} {c : Char} (h : c ∈ sign.text) : isNumeral c = true := by
  cases sign with
  | absent => cases h
  | plus =>
    rw [List.mem_singleton.mp h]
    rfl
  | minus =>
    rw [List.mem_singleton.mp h]
    rfl

theorem isNumeral_of_mem_body {c : Char} (h : c ∈ literal.body) : isNumeral c = true := by
  rw [body, List.mem_append, List.mem_append] at h
  rcases h with (hwhole | hfraction) | hexponent
  · exact isNumeral_of_isDigit (literal.whole.isDigit c hwhole)
  · rw [fractionText] at hfraction
    cases hdigits : literal.fraction with
    | none =>
      rw [hdigits] at hfraction
      cases hfraction
    | some digits =>
      rw [hdigits] at hfraction
      rcases List.mem_cons.mp hfraction with rfl | hdigit
      · rfl
      · exact isNumeral_of_isDigit (digits.isDigit c hdigit)
  · rw [exponentText] at hexponent
    cases hsome : literal.exponent with
    | none =>
      rw [hsome] at hexponent
      cases hexponent
    | some exponent =>
      rw [hsome] at hexponent
      rcases List.mem_cons.mp hexponent with rfl | hrest
      · rcases exponent.mark_eq with hmark | hmark <;> rw [hmark] <;> rfl
      · rcases List.mem_append.mp hrest with hsign | hdigit
        · exact isNumeral_of_mem_sign hsign
        · exact isNumeral_of_isDigit (exponent.digits.isDigit c hdigit)

theorem isNumeral_of_mem_text {c : Char} (h : c ∈ literal.text) : isNumeral c = true := by
  rcases List.mem_append.mp h with hsign | hbody
  · exact isNumeral_of_mem_sign hsign
  · exact isNumeral_of_mem_body hbody

/-- A literal without its sign starts with a digit or with its point. -/
theorem body_eq_cons : ∃ c rest, literal.body = c :: rest ∧ (c.isDigit = true ∨ c = '.') := by
  rw [body]
  cases hwhole : literal.whole.text with
  | cons c rest => exact ⟨c, _, rfl, .inl (literal.whole.isDigit c (hwhole ▸ List.mem_cons_self))⟩
  | nil =>
    rw [fractionText]
    cases hfraction : literal.fraction with
    | none => exact absurd hwhole (literal.whole_ne_nil hfraction)
    | some digits => exact ⟨'.', _, rfl, .inr rfl⟩

/-- A literal ends in a digit. -/
theorem text_eq_append : ∃ front c, literal.text = front ++ [c] ∧ c.isDigit = true := by
  have hlast : ∀ digits : Digits, digits.text ≠ [] →
      ∃ front c, digits.text = front ++ [c] ∧ c.isDigit = true := by
    intro digits hne
    exact ⟨_, _, (List.dropLast_append_getLast hne).symm, digits.isDigit _ (List.getLast_mem hne)⟩
  rw [text, body, exponentText]
  cases literal.exponent with
  | some exponent =>
    obtain ⟨front, c, hdigits, hc⟩ := hlast exponent.digits exponent.digits_ne_nil
    refine ⟨literal.sign.text ++ (literal.whole.text ++ literal.fractionText) ++
      exponent.mark :: (exponent.sign.text ++ front), c, ?_, hc⟩
    simp [Exponent.text, hdigits]
  | none =>
    rw [fractionText]
    cases hfraction : literal.fraction with
    | some digits =>
      obtain ⟨front, c, hdigits, hc⟩ := hlast digits (literal.fraction_ne_nil digits hfraction)
      refine ⟨literal.sign.text ++ literal.whole.text ++ '.' :: front, c, ?_, hc⟩
      simp [hdigits]
    | none =>
      obtain ⟨front, c, hdigits, hc⟩ := hlast literal.whole (literal.whole_ne_nil hfraction)
      refine ⟨literal.sign.text ++ front, c, ?_, hc⟩
      simp [hdigits]

section parse

theorem natural_digits {text : List Char} (hdigits : ∀ c ∈ text, c.isDigit = true) (hne : text ≠ []) :
    natural decimalDigit 10 text = some (Nat.ofDigitChars 10 text 0) := by
  have hdigit : ∀ c : Char, c.isDigit = true → decimalDigit c = some (c.toNat - '0'.toNat) := by
    intro c hc
    have hrange : '0' ≤ c ∧ c ≤ '9' := by
      rw [Char.isDigit, Bool.and_eq_true, decide_eq_true_eq, decide_eq_true_eq] at hc
      exact hc
    rw [decimalDigit, if_pos hrange]
  have hmapM : text.mapM decimalDigit = some (text.map fun c => c.toNat - '0'.toNat) := by
    clear hne
    induction text with
    | nil => rfl
    | cons c text ih =>
      obtain ⟨hc, hrest⟩ := List.forall_mem_cons.mp hdigits
      simp [List.mapM_cons, hdigit c hc, ih hrest]
  have hempty : text.isEmpty = false := List.isEmpty_eq_false_iff.mpr hne
  rw [natural, hempty, if_neg Bool.false_ne_true, hmapM, Option.map_some, List.foldl_map,
    Nat.ofDigitChars_eq_foldl]

theorem natural_text (digits : Digits) (hne : digits.text ≠ []) :
    natural decimalDigit 10 digits.text = some digits.value :=
  natural_digits digits.isDigit hne

theorem signed_text (sign : Sign) (digits : Digits) (hne : digits.text ≠ []) :
    signed (sign.text ++ digits.text) = some (sign.signed digits.value) := by
  cases sign with
  | plus =>
    rw [Sign.text, List.singleton_append, signed, natural_text digits hne]
    rfl
  | minus =>
    rw [Sign.text, List.singleton_append, signed, natural_text digits hne]
    rfl
  | absent =>
    have hplain : ∀ c ∈ digits.text, c ≠ '-' ∧ c ≠ '+' := by
      intro c hc
      have hdigit := digits.isDigit c hc
      constructor <;> rintro rfl <;> cases hdigit
    rw [Sign.text, List.nil_append, signed, natural_text digits hne]
    · rfl
    · intro rest hrest
      exact (hplain '-' (hrest ▸ List.mem_cons_self)).1 rfl
    · intro rest hrest
      exact (hplain '+' (hrest ▸ List.mem_cons_self)).2 rfl

variable (literal)

/-- What stands before the exponent. -/
def mantissa : List Char := literal.whole.text ++ literal.fractionText

variable {literal}

theorem mantissa_plain {c : Char} (h : c ∈ literal.mantissa) : c.isDigit = true ∨ c = '.' := by
  rcases List.mem_append.mp h with hwhole | hfraction
  · exact .inl (literal.whole.isDigit c hwhole)
  · rw [fractionText] at hfraction
    cases hdigits : literal.fraction with
    | none =>
      rw [hdigits] at hfraction
      cases hfraction
    | some digits =>
      rw [hdigits] at hfraction
      rcases List.mem_cons.mp hfraction with rfl | hdigit
      · exact .inr rfl
      · exact .inl (digits.isDigit c hdigit)

theorem pointed_mantissa : pointed decimalDigit 10 literal.mantissa =
    some (Nat.ofDigitChars 10 (literal.whole.text ++ literal.fraction.elim [] Digits.text) 0,
      (literal.fraction.elim [] Digits.text).length) := by
  have hwhole : ∀ c ∈ literal.whole.text, (c != '.') = true := by
    intro c hc
    have hdigit := literal.whole.isDigit c hc
    rw [bne_iff_ne]
    rintro rfl
    cases hdigit
  have htake : literal.mantissa.takeWhile (· != '.') = literal.whole.text := by
    rw [mantissa, List.takeWhile_append_of_pos hwhole, fractionText]
    cases literal.fraction with
    | none => simp
    | some digits => simp
  have hdrop : (literal.mantissa.dropWhile (· != '.')).drop 1 = literal.fraction.elim [] Digits.text := by
    rw [mantissa, List.dropWhile_append_of_pos hwhole, fractionText]
    cases literal.fraction with
    | none => rfl
    | some digits => simp
  have hdigits : ∀ c ∈ literal.whole.text ++ literal.fraction.elim [] Digits.text, c.isDigit = true := by
    intro c hc
    rcases List.mem_append.mp hc with hc | hc
    · exact literal.whole.isDigit c hc
    · cases hfraction : literal.fraction with
      | none =>
        rw [hfraction] at hc
        cases hc
      | some digits =>
        rw [hfraction] at hc
        exact digits.isDigit c hc
  have hne : literal.whole.text ++ literal.fraction.elim [] Digits.text ≠ [] := by
    intro hnil
    obtain ⟨hwholeNil, hfractionNil⟩ := List.append_eq_nil_iff.mp hnil
    cases hfraction : literal.fraction with
    | none => exact literal.whole_ne_nil hfraction hwholeNil
    | some digits =>
      rw [hfraction] at hfractionNil
      exact literal.fraction_ne_nil digits hfraction hfractionNil
  rw [pointed, htake, hdrop, natural_digits hdigits hne]
  rfl

/-- The digits on both sides of the point and the places behind it make up the number. -/
theorem magnitude_eq : literal.magnitude =
    (Nat.ofDigitChars 10 (literal.whole.text ++ literal.fraction.elim [] Digits.text) 0 : ℚ) *
      10 ^ (literal.exponent.elim 0 Exponent.value -
        ((literal.fraction.elim [] Digits.text).length : Int)) := by
  have hshift : ∀ (text : List Char) (n : Nat),
      Nat.ofDigitChars 10 text n = 10 ^ text.length * n + Nat.ofDigitChars 10 text 0 := fun _ _ =>
    Nat.ofDigitChars_eq_ofDigitChars_zero
  rw [magnitude, zpow_sub₀ (by norm_num), zpow_natCast, Nat.ofDigitChars_append, hshift]
  cases literal.fraction with
  | none => simp [Digits.value]
  | some digits =>
    simp only [Option.elim_some, Digits.value]
    push_cast
    field_simp

/-- A literal has no letter for its type at its end. -/
theorem dropTypeSuffix_body : dropTypeSuffix literal.body = literal.body := by
  obtain ⟨front, c, htext, hc⟩ := literal.text_eq_append
  obtain ⟨first, rest, hbody, -⟩ := literal.body_eq_cons
  have hlast : literal.body.getLast? = some c := by
    have htextLast : literal.text.getLast? = some c := by rw [htext, List.getLast?_concat]
    rw [text, hbody, List.getLast?_append] at htextLast
    rw [hbody]
    rw [List.getLast?_cons] at htextLast ⊢
    exact htextLast
  have hplain : ¬ (c ∈ ['f', 'F', 'd', 'D']) := by
    intro hmem
    simp only [List.mem_cons, List.not_mem_nil, or_false] at hmem
    rcases hmem with rfl | rfl | rfl | rfl <;> cases hc
  rw [dropTypeSuffix, hlast, if_neg]
  simpa using hplain

theorem decimal_body : decimal literal.body = some (.ofRat literal.magnitude) := by
  let isMark : Char → Bool := fun c => c == 'e' || c == 'E'
  have hmantissa : ∀ c ∈ literal.mantissa, (!isMark c) = true := by
    intro c hc
    rcases mantissa_plain hc with hdigit | rfl
    · have hne : c ≠ 'e' ∧ c ≠ 'E' := by
        constructor <;> rintro rfl <;> cases hdigit
      simpa [isMark] using hne
    · rfl
  have hbody : literal.body = literal.mantissa ++ literal.exponentText := rfl
  have hexponent : literal.exponentText.takeWhile (!isMark ·) = [] ∧
      literal.exponentText.dropWhile (!isMark ·) = literal.exponentText := by
    rw [exponentText]
    cases literal.exponent with
    | none => exact ⟨rfl, rfl⟩
    | some exponent =>
      have hmark : (!isMark exponent.mark) = false := by
        rcases exponent.mark_eq with hmark | hmark <;> rw [hmark] <;> rfl
      rw [Option.elim_some, Exponent.text, List.takeWhile_cons, List.dropWhile_cons, hmark]
      exact ⟨rfl, rfl⟩
  have htake : literal.body.takeWhile (!isMark ·) = literal.mantissa := by
    rw [hbody, List.takeWhile_append_of_pos hmantissa, hexponent.1, List.append_nil]
  have hdrop : literal.body.dropWhile (!isMark ·) = literal.exponentText := by
    rw [hbody, List.dropWhile_append_of_pos hmantissa, hexponent.2]
  rw [decimal, dropTypeSuffix_body]
  simp only [isMark] at htake hdrop
  rw [htake, hdrop, pointed_mantissa, magnitude_eq, exponentText]
  cases literal.exponent with
  | none => rfl
  | some exponent =>
    rw [Option.elim_some, Option.elim_some, Exponent.text]
    simp [signed_text exponent.sign exponent.digits exponent.digits_ne_nil, Exponent.value]

theorem body_ne {name : List Char} {c : Char} (hmem : c ∈ name) (hc : isNumeral c = false) :
    literal.body ≠ name := by
  rintro rfl
  rw [isNumeral_of_mem_body hmem] at hc
  cases hc

/-- A literal is no name of a special value and is not hexadecimal. -/
theorem unsigned_body : unsigned literal.body = some (.ofRat literal.magnitude) := by
  have hnanText : "NaN".toList = ['N', 'a', 'N'] := rfl
  have hinfinityText : "Infinity".toList = ['I', 'n', 'f', 'i', 'n', 'i', 't', 'y'] := rfl
  have hnan : literal.body ≠ ['N', 'a', 'N'] := body_ne List.mem_cons_self rfl
  have hinfinity : literal.body ≠ ['I', 'n', 'f', 'i', 'n', 'i', 't', 'y'] := body_ne List.mem_cons_self rfl
  have hhex : ∀ digits, literal.body ≠ '0' :: 'x' :: digits := fun digits =>
    body_ne (List.mem_cons_of_mem _ List.mem_cons_self) rfl
  have hHex : ∀ digits, literal.body ≠ '0' :: 'X' :: digits := fun digits =>
    body_ne (List.mem_cons_of_mem _ List.mem_cons_self) rfl
  have hdecimal : decimal literal.body = some (.ofRat literal.magnitude) := decimal_body
  generalize literal.body = body at *
  unfold unsigned
  rw [hnanText, hinfinityText, if_neg hnan, if_neg hinfinity]
  split
  · exact absurd rfl (hhex _)
  · exact absurd rfl (hHex _)
  · exact hdecimal

theorem trim_text : trim (String.ofList literal.text) = String.ofList literal.text := by
  have hhigh : ∀ c ∈ literal.text, ¬ c.toNat ≤ 32 := by
    intro c hc hle
    have hnumeral := isNumeral_of_mem_text hc
    rw [isNumeral, Bool.or_eq_true, List.contains_iff_mem] at hnumeral
    rcases hnumeral with hdigit | hmem
    · rw [Char.isDigit, Bool.and_eq_true, decide_eq_true_eq, decide_eq_true_eq] at hdigit
      have hlow : 48 ≤ c.toNat := hdigit.1
      omega
    · simp only [List.mem_cons, List.not_mem_nil, or_false] at hmem
      rcases hmem with rfl | rfl | rfl | rfl | rfl <;> exact absurd hle (by decide)
  have hkeep : ∀ text : List Char, (∀ c ∈ text, ¬ c.toNat ≤ 32) →
      text.dropWhile (fun c => decide (c.toNat ≤ 32)) = text := by
    intro text htext
    rw [List.dropWhile_eq_self_iff]
    intro hlength
    simpa using htext _ (List.getElem_mem hlength)
  rw [trim, String.toList_ofList, hkeep _ hhigh, hkeep _ (by simpa using hhigh), List.reverse_reverse]

/-- A literal is read as the double next to the number that it writes. -/
theorem parseDouble_text : parseDouble (String.ofList literal.text) = some literal.double := by
  rw [parseDouble, trim_text, String.toList_ofList, text, double]
  cases hsign : literal.sign with
  | plus =>
    rw [Sign.text, List.singleton_append]
    exact unsigned_body
  | minus =>
    rw [Sign.text, List.singleton_append]
    simp only [unsigned_body]
    rfl
  | absent =>
    obtain ⟨c, rest, hbody, hc⟩ := literal.body_eq_cons
    rw [Sign.text, List.nil_append]
    split
    · rename_i heq
      obtain ⟨rfl, -⟩ := List.cons.inj (hbody.symm.trans heq)
      rcases hc with hdigit | hpoint
      · cases hdigit
      · cases hpoint
    · rename_i heq
      obtain ⟨rfl, -⟩ := List.cons.inj (hbody.symm.trans heq)
      rcases hc with hdigit | hpoint
      · cases hdigit
      · cases hpoint
    · exact unsigned_body

end parse

end DecimalLiteral

end java.lang.Double
