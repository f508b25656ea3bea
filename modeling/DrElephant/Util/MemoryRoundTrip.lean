import DrElephant.Util.MemoryStrings

open drelephant.math ieee java.lang java.lang.Double java.text

namespace drelephant.util.MemoryFormatUtils

section read

/-- A number with two places in units of bytes. From 512 TB on the double next
to it can be larger by enough to complete a byte. -/
def readHundredths (hundredths : Int) (bytes : Int) : Int :=
  hundredths * bytes / 100 + if bytes = 2 ^ 40 ∧ 51200 ≤ hundredths ∧ hundredths % 25 = 21 then 1 else 0

variable {h k : ℕ}

/-- The units are powers of two up to the terabyte. -/
theorem exponent_unit_le (hk : k ∈ [0, 10, 20, 30, 40]) : k ≤ 40 := by
  simp only [List.mem_cons, List.not_mem_nil, or_false] at hk
  omega

theorem exponent_hundredths (hh : h < 100000) : exponent ((h : ℚ) / 100) ≤ -43 := by
  refine exponent_le ?_ (by decide)
  have hlt : (h : ℚ) < 100000 := by exact_mod_cast hh
  rw [abs_of_nonneg (by positivity), div_lt_iff₀ (by norm_num)]
  exact hlt.trans (by norm_num)

/-- The hundredths of a byte in hundredths of terabytes. -/
theorem terabytes_emod (n : Int) : n * 2 ^ 40 % 100 = 76 * n % 100 := by
  have hsplit : n * 2 ^ 40 = 76 * n + 100 * (10995116277 * n) := by ring
  rw [hsplit, Int.add_mul_emod_self_left]

/-- The fraction of a byte that is missing is more than rounding adds. -/
theorem error_lt_missing (hh : h < 100000) (hk : k ∈ [0, 10, 20, 30, 40])
    (hpart : (h * 2 ^ k : ℤ) % 100 ≠ 0) (hexact : ¬ (k = 40 ∧ 51200 ≤ h ∧ h % 25 = 21)) :
    (2 : ℚ) ^ exponent ((h : ℚ) / 100) / 2 * 2 ^ k < (100 - (h * 2 ^ k : ℤ) % 100 : ℤ) / 100 := by
  have hbound : ∀ e : ℤ, exponent ((h : ℚ) / 100) ≤ e →
      (2 : ℚ) ^ exponent ((h : ℚ) / 100) / 2 * 2 ^ k ≤ 2 ^ e / 2 * 2 ^ k := by
    intro e he
    have hle : (2 : ℚ) ^ exponent ((h : ℚ) / 100) ≤ 2 ^ e := zpow_le_zpow_right₀ one_le_two he
    exact mul_le_mul_of_nonneg_right (div_le_div_of_nonneg_right hle two_pos.le) (by positivity)
  have hmissing : ∀ m : ℤ, m ≤ 100 - (h * 2 ^ k : ℤ) % 100 →
      (m : ℚ) / 100 ≤ (100 - (h * 2 ^ k : ℤ) % 100 : ℤ) / 100 := by
    intro m hm
    exact div_le_div_of_nonneg_right (by exact_mod_cast hm) (by norm_num)
  have hleast := exponent_hundredths hh
  by_cases hlarge : k = 40
  · subst hlarge
    by_cases hsmall : h < 51200
    · -- Below 512 the last place is half as large.
      have hexponent : exponent ((h : ℚ) / 100) ≤ -44 := by
        refine exponent_le ?_ (by decide)
        have hlt : (h : ℚ) < 51200 := by exact_mod_cast hsmall
        rw [abs_of_nonneg (by positivity), div_lt_iff₀ (by norm_num)]
        exact hlt.trans_le (by norm_num)
      calc (2 : ℚ) ^ exponent ((h : ℚ) / 100) / 2 * 2 ^ 40 ≤ 2 ^ (-44 : ℤ) / 2 * 2 ^ 40 := hbound _ hexponent
        _ < (4 : ℤ) / 100 := by norm_num
        _ ≤ _ := hmissing 4 (by rw [terabytes_emod]; omega)
    · calc (2 : ℚ) ^ exponent ((h : ℚ) / 100) / 2 * 2 ^ 40 ≤ 2 ^ (-43 : ℤ) / 2 * 2 ^ 40 := hbound _ hleast
        _ < (8 : ℤ) / 100 := by norm_num
        _ ≤ _ := hmissing 8 (by rw [terabytes_emod]; omega)
  · have hle : k ≤ 30 := by
      simp only [List.mem_cons, List.not_mem_nil, or_false] at hk
      omega
    calc (2 : ℚ) ^ exponent ((h : ℚ) / 100) / 2 * 2 ^ k ≤ 2 ^ (-43 : ℤ) / 2 * 2 ^ k := hbound _ hleast
      _ ≤ 2 ^ (-43 : ℤ) / 2 * 2 ^ 30 :=
        mul_le_mul_of_nonneg_left (pow_le_pow_right₀ one_le_two hle) (by positivity)
      _ < (1 : ℤ) / 100 := by norm_num
      _ ≤ _ := hmissing 1 (by omega)

/-- A missing fraction of 4 hundredths is rounded up to a whole byte. -/
theorem roundFinite_mul_of_completed (hh : h < 100000) (hlarge : 51200 ≤ h) (hmod : h % 25 = 21) :
    roundFinite ((h : ℚ) / 100) * 2 ^ 40 = ((h * 2 ^ 40 / 100 + 1 : ℤ) : ℚ) := by
  have hplace : exponent ((h : ℚ) / 100) = -43 := by
    refine le_antisymm (exponent_hundredths hh) (le_exponent ?_)
    have hge : (51200 : ℚ) ≤ h := by exact_mod_cast hlarge
    rw [abs_of_nonneg (by positivity), le_div_iff₀ (by norm_num)]
    exact le_trans (by norm_num) hge
  have hscaled : (h : ℚ) / 100 / 2 ^ (-43 : ℤ) = ((h * 2 ^ 43 : ℤ) : ℚ) / (100 : ℤ) := by
    rw [zpow_neg, div_inv_eq_mul]
    push_cast
    ring
  have hround : roundEven ((h : ℚ) / 100 / 2 ^ (-43 : ℤ)) = 8 * (h * 2 ^ 40 / 100 + 1) := by
    rw [hscaled, roundEven_div _ (by decide), if_neg (by omega)]
    omega
  rw [roundFinite, hplace, hround]
  push_cast
  norm_num
  ring

/-- Up to a thousand units the bytes are cut off where the number has them, but
for those that rounding completes. -/
theorem floor_roundFinite_hundredths (hh : h < 100000) (hk : k ∈ [0, 10, 20, 30, 40]) :
    ⌊roundFinite ((h : ℚ) / 100) * 2 ^ k⌋ = readHundredths h (2 ^ k) := by
  have hk40 := exponent_unit_le hk
  have hexponent := exponent_hundredths hh
  have hbytes : (h : ℚ) / 100 * 2 ^ k = ((h * 2 ^ k : ℤ) : ℚ) / (100 : ℤ) := by
    push_cast
    ring
  have hfloor : ⌊(h : ℚ) / 100 * 2 ^ k⌋ = h * 2 ^ k / 100 := by
    rw [hbytes, floor_div_eq _ (by decide)]
  obtain ⟨hlo, hhi⟩ := floor_le_roundFinite_mul (k := k) (hexponent.trans (by omega))
  rw [hfloor] at hlo
  have hpow : (2 : ℤ) ^ k = 2 ^ 40 ↔ k = 40 := by
    exact pow_right_inj₀ (by decide) (by decide)
  rw [readHundredths]
  simp only [hpow]
  by_cases hexact : k = 40 ∧ 51200 ≤ h ∧ h % 25 = 21
  · obtain ⟨rfl, hlarge, hmod⟩ := hexact
    rw [roundFinite_mul_of_completed hh hlarge hmod, Int.floor_intCast, if_pos ⟨rfl, by omega, by omega⟩]
  · rw [if_neg (by omega), add_zero, Int.floor_eq_iff]
    refine ⟨hlo, ?_⟩
    have hsplit := Int.mul_ediv_add_emod (h * 2 ^ k) 100
    by_cases hpart : (h * 2 ^ k : ℤ) % 100 = 0
    · have hwhole : (h : ℚ) / 100 * 2 ^ k = ((h * 2 ^ k / 100 : ℤ) : ℚ) := by
        rw [hbytes, div_eq_iff (by norm_num)]
        exact_mod_cast (by omega : (h * 2 ^ k : ℤ) = h * 2 ^ k / 100 * 100)
      rw [hwhole, Int.ceil_intCast] at hhi
      exact hhi.trans_lt (lt_add_one _)
    · have herror := error_lt_missing hh hk hpart hexact
      have hdifference : roundFinite ((h : ℚ) / 100) * 2 ^ k - (h : ℚ) / 100 * 2 ^ k ≤
          2 ^ exponent ((h : ℚ) / 100) / 2 * 2 ^ k := by
        rw [← sub_mul]
        exact mul_le_mul_of_nonneg_right ((le_abs_self _).trans (abs_roundFinite_sub_le _)) (by positivity)
      have hmissing : (h : ℚ) / 100 * 2 ^ k + (100 - (h * 2 ^ k : ℤ) % 100 : ℤ) / 100 =
          ((h * 2 ^ k / 100 : ℤ) : ℚ) + 1 := by
        rw [hbytes]
        have hcast : (100 : ℚ) * ((h * 2 ^ k / 100 : ℤ) : ℚ) + ((h * 2 ^ k % 100 : ℤ) : ℚ) =
            ((h * 2 ^ k : ℤ) : ℚ) := by exact_mod_cast hsplit
        rw [← hcast, Int.cast_sub]
        push_cast
        ring
      linarith

end read

section print

/-- The digits behind the point of hundredths, without zeros at their end. -/
def placesDigits (hundredths : Nat) : Option Digits :=
  if hundredths = 0 then none
  else if hundredths % 10 = 0 then some (.ofNat (hundredths / 10))
  else if hundredths < 10 then
    some ⟨'0' :: (Digits.ofNat hundredths).text,
      List.forall_mem_cons.mpr ⟨rfl, (Digits.ofNat hundredths).isDigit⟩⟩
  else some (.ofNat hundredths)

theorem toList_decimalPlaces (hundredths : Nat) : (decimalPlaces hundredths).toList =
    (placesDigits hundredths).elim [] fun digits => '.' :: digits.text := by
  rw [decimalPlaces, placesDigits]
  split_ifs with hzero hten hsmall
  · rfl
  · rw [String.toList_append, Digits.toList_toString]
    rfl
  · rw [String.toList_append, Digits.toList_toString]
    rfl
  · rw [String.toList_append, Digits.toList_toString]
    rfl

theorem length_ofNat {n : Nat} (hn : n < 100) : (Digits.ofNat n).text.length = if n < 10 then 1 else 2 := by
  have hall : ∀ n < 100, (Nat.toDigits 10 n).length = if n < 10 then 1 else 2 := by decide
  exact hall n hn

theorem placesDigits_ne_nil (hundredths : Nat) : ∀ digits ∈ placesDigits hundredths, digits.text ≠ [] := by
  intro digits hdigits
  rw [placesDigits] at hdigits
  split_ifs at hdigits
  · cases hdigits
  · cases Option.mem_some.mp hdigits
    exact Digits.ofNat_ne_nil _
  · cases Option.mem_some.mp hdigits
    exact List.cons_ne_nil _ _
  · cases Option.mem_some.mp hdigits
    exact Digits.ofNat_ne_nil _

theorem value_placesDigits {hundredths : Nat} (h : hundredths < 100) :
    ((placesDigits hundredths).elim 0 fun digits => (digits.value : ℚ) / 10 ^ digits.text.length) =
      hundredths / 100 := by
  rw [placesDigits]
  split_ifs with hzero hten hsmall
  · rw [hzero]
    norm_num
  · have hlength := length_ofNat (by omega : hundredths / 10 < 100)
    rw [if_pos (by omega)] at hlength
    have hsplit : ((hundredths / 10 : ℕ) : ℚ) * 10 = hundredths := by
      exact_mod_cast (by omega : hundredths / 10 * 10 = hundredths)
    rw [Option.elim_some, hlength, Digits.value_ofNat, ← hsplit]
    ring
  · have hlength := length_ofNat h
    rw [if_pos hsmall] at hlength
    have hvalue : Nat.ofDigitChars 10 ('0' :: (Digits.ofNat hundredths).text) 0 = hundredths :=
      Digits.value_ofNat hundredths
    rw [Option.elim_some, Digits.value, hvalue, List.length_cons, hlength]
    norm_num
  · have hlength := length_ofNat h
    rw [if_neg hsmall] at hlength
    rw [Option.elim_some, hlength, Digits.value_ofNat]
    norm_num

/-- A number of hundredths as it is printed. -/
def hundredthsLiteral (h : Nat) : DecimalLiteral where
  sign := .absent
  whole := .ofNat (h / 100)
  fraction := placesDigits (h % 100)
  exponent := none
  whole_ne_nil _ := Digits.ofNat_ne_nil _
  fraction_ne_nil := placesDigits_ne_nil _

theorem magnitude_hundredthsLiteral (h : Nat) : (hundredthsLiteral h).magnitude = (h : ℚ) / 100 := by
  have hplaces := value_placesDigits (Nat.mod_lt h (by decide : 0 < 100))
  have hsplit : (100 : ℚ) * ((h / 100 : ℕ) : ℚ) + ((h % 100 : ℕ) : ℚ) = h := by
    exact_mod_cast Nat.div_add_mod h 100
  rw [DecimalLiteral.magnitude, hundredthsLiteral, hplaces, Digits.value_ofNat, ← hsplit]
  simp
  ring

/-- Below a thousand there are no commas between the digits. -/
theorem toList_decimalFormat {y : ℚ} (hy : 0 ≤ y) {h : Nat} (hround : (roundEven (y * 100)).toNat = h)
    (hh : h < 100000) : (decimalFormat (.finite y)).toList = (hundredthsLiteral h).text := by
  have hgrouped : grouped (h / 100) = toString (h / 100) := by
    rw [grouped, if_pos (by omega)]
  rw [decimalFormat, abs_of_nonneg hy, hround, if_neg (not_lt.mpr hy), hgrouped]
  simp only [String.toList_append, Digits.toList_toString, toList_decimalPlaces]
  simp [DecimalLiteral.text, DecimalLiteral.body, DecimalLiteral.fractionText, DecimalLiteral.exponentText,
    hundredthsLiteral, Sign.text]

/-- From a thousand on there is one. -/
theorem comma_mem_decimalFormat {y : ℚ} (hy : 0 ≤ y) (h : 100000 ≤ (roundEven (y * 100)).toNat) :
    ',' ∈ (decimalFormat (.finite y)).toList := by
  have hgrouped : ∀ n, 1000 ≤ n → ',' ∈ (grouped n).toList := by
    intro n hn
    rw [grouped, if_neg (by omega)]
    simp
  have hcomma := hgrouped ((roundEven (y * 100)).toNat / 100) (by omega)
  rw [decimalFormat, abs_of_nonneg hy]
  simp [hcomma]

end print

section cut

/-- Cutting off the bytes of what was rounded to hundredths of a unit, against
the bytes that were rounded. -/
theorem abs_cut_sub_le_iff {unit q rest h value : Int} (hsplit : unit * q + rest = 100 * value)
    (hlo : 0 ≤ rest) (hhi : rest < unit) {down : Prop} (hdown : down → 2 * rest ≤ unit ∧ h = q)
    (hup : ¬ down → unit ≤ 2 * rest ∧ h = q + 1) :
    200 * |h * unit / 100 - value| ≤ unit ↔ (down → rest ≤ 100 * (unit / 200)) := by
  by_cases hcase : down
  · obtain ⟨hhalf, rfl⟩ := hdown hcase
    rw [mul_comm] at hsplit
    generalize h * unit = product at hsplit ⊢
    simp only [hcase, true_implies]
    rcases abs_cases (product / 100 - value) with habs | habs <;> omega
  · obtain ⟨hhalf, rfl⟩ := hup hcase
    rw [add_mul, one_mul, mul_comm q]
    generalize unit * q = product at hsplit ⊢
    simp only [hcase, false_implies, iff_true]
    rcases abs_cases ((product + unit) / 100 - value) with habs | habs <;> omega

/-- The same where one more byte is completed. -/
theorem abs_cut_succ_sub_le_iff {q rest h value : Int} (hsplit : 2 ^ 40 * q + rest = 100 * value)
    (hlo : 0 ≤ rest) (hhi : rest < 2 ^ 40) (hmod : h % 25 = 21) {down : Prop}
    (hdown : down → 2 * rest ≤ 2 ^ 40 ∧ h = q) (hup : ¬ down → 2 ^ 40 ≤ 2 * rest ∧ h = q + 1) :
    200 * |h * 2 ^ 40 / 100 + 1 - value| ≤ 2 ^ 40 ↔ (down → rest ≤ 549755813804) := by
  have hpart : h * 2 ^ 40 % 100 = 96 := by
    rw [terabytes_emod]
    omega
  by_cases hcase : down
  · obtain ⟨hhalf, rfl⟩ := hdown hcase
    rw [mul_comm] at hsplit
    generalize h * 2 ^ 40 = product at hsplit hpart ⊢
    simp only [hcase, true_implies]
    rcases abs_cases (product / 100 + 1 - value) with habs | habs <;> omega
  · obtain ⟨hhalf, rfl⟩ := hup hcase
    rw [add_mul, one_mul, mul_comm q] at hpart ⊢
    generalize 2 ^ 40 * q = product at hsplit hpart ⊢
    simp only [hcase, false_implies, iff_true]
    rcases abs_cases ((product + 2 ^ 40) / 100 + 1 - value) with habs | habs <;> omega

end cut

section roundTrip

/-- The bytes of the unit that a value is printed in. -/
def printedUnit (value : Int) : Int := (UNITS.find? fun unit => unit.bytes ≤ value).elim 1 MemoryUnit.bytes

/-- No more hundredths of the unit are printed than there are. -/
def RoundedDown (value : Int) : Prop :=
  2 * (100 * value % printedUnit value) < printedUnit value ∨
    2 * (100 * value % printedUnit value) = printedUnit value ∧ 100 * value / printedUnit value % 2 = 0

instance (value : Int) : Decidable (RoundedDown value) := inferInstanceAs (Decidable (_ ∨ _))

def hundredths (value : Int) : Int :=
  if RoundedDown value then 100 * value / printedUnit value else 100 * value / printedUnit value + 1

/-- What was rounded down is cut off once more when it is read, and is then off
by more than half a hundredth of the unit. -/
def CutTooFar (value : Int) : Prop :=
  RoundedDown value ∧ 100 * (printedUnit value / 200) < 100 * value % printedUnit value

/-- The one remainder for which a byte that rounding completes makes up for it. -/
def MadeUpFor (value : Int) : Prop :=
  printedUnit value = 2 ^ 40 ∧ 51200 ≤ 100 * value / printedUnit value ∧
    100 * value % printedUnit value = 549755813804

/-- The unit that a value is printed in is the largest one that is not larger. -/
theorem exists_printedUnit {value : Int} (hlo : 0 ≤ value) :
    ∃ unit ∈ UNITS, printedUnit value = unit.bytes ∧ (unit.bytes = 1 → value < 2 ^ 10) ∧
      (value = 0 ∧ unit = ⟨"B", 1⟩ ∨ UNITS.find? (fun unit => unit.bytes ≤ value) = some unit) := by
  cases hfind : UNITS.find? fun unit => unit.bytes ≤ value with
  | none =>
    have hnone := List.find?_eq_none.mp hfind ⟨"B", 1⟩ (by decide)
    rw [decide_eq_true_eq, not_le] at hnone
    have hsmall : value < 1 := hnone
    refine ⟨⟨"B", 1⟩, by decide, by rw [printedUnit, hfind]; rfl, fun _ => by omega, .inl ⟨by omega, rfl⟩⟩
  | some unit =>
    refine ⟨unit, List.mem_of_find?_eq_some hfind, by rw [printedUnit, hfind]; rfl, ?_, .inr rfl⟩
    intro hone
    by_contra hlarge
    -- A larger unit is found first.
    let larger : List MemoryUnit := [⟨"TB", 2 ^ 40⟩, ⟨"GB", 2 ^ 30⟩, ⟨"MB", 2 ^ 20⟩, ⟨"KB", 2 ^ 10⟩]
    have hunits : UNITS = larger ++ [⟨"B", 1⟩] := rfl
    obtain ⟨first, hfirst⟩ : ∃ first, larger.find? (fun unit => unit.bytes ≤ value) = some first := by
      rw [← Option.isSome_iff_exists, List.find?_isSome]
      exact ⟨⟨"KB", 2 ^ 10⟩, by decide, decide_eq_true (not_lt.mp hlarge)⟩
    rw [hunits, List.find?_append, hfirst, Option.some_or, Option.some.injEq] at hfind
    have hall : ∀ unit ∈ larger, unit.bytes ≠ 1 := by decide
    exact hall unit (hfind ▸ List.mem_of_find?_eq_some hfirst) hone

theorem printedUnit_pos {value : Int} (hlo : 0 ≤ value) : 0 < printedUnit value := by
  obtain ⟨unit, hunit, hbytes, -⟩ := exists_printedUnit hlo
  rw [hbytes]
  have hall : ∀ unit ∈ UNITS, 0 < unit.bytes := by decide
  exact hall unit hunit

theorem emod_of_madeUpFor {h value : Int} (hsplit : 2 ^ 40 * h + 549755813804 = 100 * value) : h % 25 = 21 := by
  have hpart : 76 * h % 100 = 96 := by
    have hproduct : h * 2 ^ 40 = 96 + 100 * (value - 5497558139) := by linarith only [hsplit]
    rw [← terabytes_emod, hproduct, Int.add_mul_emod_self_left]
    rfl
  clear hsplit
  omega

/-- Reading is exact up to half a hundredth of the unit unless a value is cut too
far and nothing makes up for it. -/
theorem abs_readHundredths_sub_le_iff {value : Int} (hlo : 0 ≤ value) :
    200 * |readHundredths (hundredths value) (printedUnit value) - value| ≤ printedUnit value ↔
      (CutTooFar value → MadeUpFor value) := by
  have hpos := printedUnit_pos hlo
  have hsplit := Int.mul_ediv_add_emod (100 * value) (printedUnit value)
  have hrest := Int.emod_nonneg (100 * value) hpos.ne'
  have hlt := Int.emod_lt_of_pos (100 * value) hpos
  have hdown : RoundedDown value → 2 * (100 * value % printedUnit value) ≤ printedUnit value ∧
      hundredths value = 100 * value / printedUnit value := by
    intro h
    exact ⟨h.elim le_of_lt fun h => h.1.le, if_pos h⟩
  have hup : ¬ RoundedDown value → printedUnit value ≤ 2 * (100 * value % printedUnit value) ∧
      hundredths value = 100 * value / printedUnit value + 1 := by
    intro h
    exact ⟨not_lt.mp fun hlow => h (.inl hlow), if_neg h⟩
  rw [readHundredths, CutTooFar, MadeUpFor]
  generalize hundredths value = h at *
  generalize 100 * value / printedUnit value = q at *
  generalize 100 * value % printedUnit value = rest at *
  by_cases hcomplete : printedUnit value = 2 ^ 40 ∧ 51200 ≤ h ∧ h % 25 = 21
  · obtain ⟨hunit, hlarge, hmod⟩ := hcomplete
    rw [if_pos ⟨hunit, hlarge, hmod⟩]
    rw [hunit] at hsplit hlt hdown hup ⊢
    rw [abs_cut_succ_sub_le_iff hsplit hrest hlt hmod hdown hup]
    constructor
    · rintro hle ⟨hcase, hcut⟩
      obtain ⟨-, rfl⟩ := hdown hcase
      have hbound := hle hcase
      exact ⟨rfl, hlarge, by omega⟩
    · intro hmade hcase
      by_contra hcut
      have hequal := (hmade ⟨hcase, by omega⟩).2.2
      omega
  · rw [if_neg hcomplete, add_zero, abs_cut_sub_le_iff hsplit hrest hlt hdown hup]
    constructor
    · rintro hle ⟨hcase, hcut⟩
      exact absurd (hle hcase) (not_le.mpr hcut)
    · intro hmade hcase
      by_contra hcut
      obtain ⟨hunit, hlarge, hequal⟩ := hmade ⟨hcase, not_le.mp hcut⟩
      obtain ⟨-, rfl⟩ := hdown hcase
      rw [hunit, hequal] at hsplit
      exact hcomplete ⟨hunit, hlarge, emod_of_madeUpFor hsplit⟩

theorem exists_bytes_eq {unit : MemoryUnit} (h : unit ∈ UNITS) :
    ∃ k ∈ [0, 10, 20, 30, 40], unit.bytes = 2 ^ k := by
  have hall : ∀ unit ∈ UNITS, ∃ k ∈ [0, 10, 20, 30, 40], unit.bytes = 2 ^ k := by decide
  exact hall unit h

/-- A value that no double need be exact for is far beyond a thousand of the largest unit. -/
theorem exists_div_of_large {value : Int} {k : ℕ} (hlarge : 2 ^ 53 ≤ value) (hhi : value < 2 ^ 63) (hk : k ≤ 40) :
    ∃ y, (Binary64.ofInt value).div (.ofInt (2 ^ k)) = .finite y ∧ 2 ^ 13 ≤ y := by
  have hpos : (0 : ℚ) < 2 ^ k := by positivity
  have hvalue : (0 : ℚ) ≤ value := by exact_mod_cast (by omega : 0 ≤ value)
  obtain ⟨hfinite, hbound⟩ := Binary64.ofInt_of_range (by omega) hhi.le
  have hpowFinite : Binary64.ofInt (2 ^ k) = .finite (2 ^ k) := by
    have hle : (2 : ℤ) ^ k ≤ 2 ^ 53 := pow_le_pow_right₀ one_le_two (by omega)
    rw [Binary64.ofInt_eq_finite (by rwa [abs_of_pos (by positivity)])]
    push_cast
    rfl
  -- The quotient is at least that of the smallest large value by the largest unit.
  have hquotient : ((2 ^ 13 : ℤ) : ℚ) ≤ roundFinite value / 2 ^ k := by
    have hround : ((2 ^ 53 : ℤ) : ℚ) ≤ roundFinite value := by
      rw [← roundFinite_intCast (n := 2 ^ 53) (by decide)]
      exact roundFinite_mono (by exact_mod_cast hlarge)
    rw [le_div_iff₀ hpos]
    calc ((2 ^ 13 : ℤ) : ℚ) * 2 ^ k ≤ ((2 ^ 13 : ℤ) : ℚ) * 2 ^ 40 :=
          mul_le_mul_of_nonneg_left (pow_le_pow_right₀ one_le_two hk) (by norm_num)
      _ = ((2 ^ 53 : ℤ) : ℚ) := by norm_num
      _ ≤ roundFinite value := hround
  have hatMost : roundFinite value / 2 ^ k ≤ ((2 ^ 63 : ℤ) : ℚ) := by
    have hround : roundFinite value ≤ ((2 ^ 63 : ℤ) : ℚ) := by
      have hle := (abs_le.mp hbound).2
      exact_mod_cast hle
    exact (div_le_self (Binary64.roundFinite_nonneg hvalue) (one_le_pow₀ one_le_two)).trans hround
  have hlower : (2 : ℚ) ^ 13 ≤ roundFinite (roundFinite value / 2 ^ k) := by
    have hmono := roundFinite_mono hquotient
    rw [roundFinite_intCast (by decide)] at hmono
    exact_mod_cast hmono
  have hupper : |roundFinite (roundFinite value / 2 ^ k)| ≤ 2 ^ (128 : ℤ) := by
    rw [abs_of_nonneg (le_trans (by norm_num) hlower)]
    have hmax := (abs_le.mp (Binary64.ofInt_of_range (n := 2 ^ 63) (by decide) le_rfl).2).2
    exact (roundFinite_mono hatMost).trans (hmax.trans (by norm_num))
  refine ⟨roundFinite (roundFinite value / 2 ^ k), ?_, hlower⟩
  rw [hfinite, hpowFinite, Binary64.div, if_neg hpos.ne', Binary64.ofRat_of_abs_le hupper]

/-- The number that is printed is the quotient, unless it is far beyond a thousand. -/
theorem exists_printedNumber {value : Int} (hlo : 0 ≤ value) (hhi : value < 2 ^ 63) :
    ∃ unit ∈ UNITS, ∃ y : ℚ, printedUnit value = unit.bytes ∧
      bytesToString value = .ok (decimalFormat (.finite y) ++ " " ++ unit.name) ∧ 0 ≤ y ∧
      (value < 2 ^ 53 → y = value / unit.bytes) ∧ (2 ^ 53 ≤ value → 2 ^ 13 ≤ y) := by
  obtain ⟨unit, hunit, hbytes, hone, hfind⟩ := exists_printedUnit hlo
  have hvalue : (0 : ℚ) ≤ value := by exact_mod_cast hlo
  rcases hfind with ⟨rfl, rfl⟩ | hfind
  · exact ⟨_, hunit, 0, hbytes, by decide +kernel, le_rfl, by simp, by omega⟩
  · have hprint : bytesToString value = .ok (decimalFormat
        (if unit.bytes > 1 then (Binary64.ofInt value).div (.ofInt unit.bytes) else .ofInt value) ++
        " " ++ unit.name) := by
      rw [bytesToString, if_neg (by omega), hfind]
    obtain ⟨k, hk, hpow⟩ := exists_bytes_eq hunit
    have hk40 := exponent_unit_le hk
    have hpos : (0 : ℚ) < 2 ^ k := by positivity
    by_cases hunitOne : unit.bytes = 1
    · have hsmall := hone hunitOne
      rw [if_neg (by omega), Binary64.ofInt_eq_finite (by rw [abs_of_nonneg hlo]; omega)] at hprint
      refine ⟨unit, hunit, value, hbytes, hprint, hvalue, fun _ => ?_, fun hlarge => by omega⟩
      rw [hunitOne, Int.cast_one, div_one]
    · have hmore : unit.bytes > 1 := by
        have hall : ∀ unit ∈ UNITS, unit.bytes = 1 ∨ unit.bytes > 1 := by decide
        exact (hall unit hunit).resolve_left hunitOne
      rw [if_pos hmore, hpow] at hprint
      by_cases hsmall : value < 2 ^ 53
      · rw [Binary64.div_ofInt_two_pow (by rwa [abs_of_nonneg hlo]) (by omega)] at hprint
        refine ⟨unit, hunit, value / 2 ^ k, hbytes, hprint, div_nonneg hvalue hpos.le, fun _ => ?_,
          fun hlarge => by omega⟩
        rw [hpow]
        push_cast
        rfl
      · obtain ⟨y, hquotient, hthousands⟩ := exists_div_of_large (not_lt.mp hsmall) hhi hk40
        rw [hquotient] at hprint
        exact ⟨unit, hunit, y, hbytes, hprint, le_trans (by norm_num) hthousands, fun hlt => absurd hlt hsmall,
          fun _ => hthousands⟩

/-- What is printed of a value from a thousand units on has a comma in it, which no memory text has. -/
theorem MemoryText.comma_not_mem (memory : MemoryText) : ',' ∉ memory.text := by
  intro hmem
  rcases List.mem_append.mp hmem with hnumber | hrest
  · exact absurd (DecimalLiteral.isNumeral_of_mem_text hnumber) (by decide)
  rcases List.mem_append.mp hrest with hspace | hunit
  · exact absurd (memory.isSpace ',' hspace) (by decide)
  rcases List.mem_append.mp hunit with hletter | hb
  · exact absurd (memory.letter_mem ',' (Option.mem_toList.mp hletter)) (by decide)
  · exact absurd (memory.b_eq ',' (Option.mem_toList.mp hb)) (by decide)

variable (formats : NumberFormats)

theorem stringToBytes_hundredths {text : String} {h k : ℕ} (hh : h < 100000) (hk : k ∈ [0, 10, 20, 30, 40])
    (memory : MemoryText) (htext : text.toList = memory.text) (hnumber : memory.number = hundredthsLiteral h)
    (hunit : memory.unitBytes = 2 ^ k) :
    stringToBytes formats (some text) = .ok (readHundredths h (2 ^ k)) := by
  have hk40 := exponent_unit_le hk
  have hpos : (0 : ℚ) ≤ (h : ℚ) / 100 := by positivity
  have hround := Binary64.roundFinite_nonneg hpos
  have hthousand : roundFinite ((h : ℚ) / 100) ≤ 1000 := by
    have hlt : (h : ℚ) ≤ 100000 := by exact_mod_cast hh.le
    have hmono : roundFinite ((h : ℚ) / 100) ≤ roundFinite ((1000 : ℤ) : ℚ) := by
      refine roundFinite_mono ?_
      rw [div_le_iff₀ (by norm_num)]
      exact hlt.trans (by norm_num)
    rw [roundFinite_intCast (by decide)] at hmono
    exact_mod_cast hmono
  have hdouble : memory.number.double = .finite (roundFinite ((h : ℚ) / 100)) := by
    have hofRat : Binary64.ofRat ((h : ℚ) / 100) = .finite (roundFinite ((h : ℚ) / 100)) := by
      refine Binary64.ofRat_of_abs_le ?_
      rw [abs_of_nonneg hround]
      exact hthousand.trans (by norm_num)
    rw [hnumber, DecimalLiteral.double, magnitude_hundredthsLiteral]
    exact hofRat
  have hnonneg : ¬ memory.IsNegative := by
    rw [MemoryText.IsNegative, hdouble]
    simp [Binary64.lt, Binary64.le, hround]
  have hscaled : 0 ≤ roundFinite ((h : ℚ) / 100) * 2 ^ k := mul_nonneg hround (by positivity)
  have hlt : roundFinite ((h : ℚ) / 100) * 2 ^ k < 2 ^ 63 := by
    calc roundFinite ((h : ℚ) / 100) * 2 ^ k ≤ 1000 * 2 ^ 40 :=
          mul_le_mul hthousand (pow_le_pow_right₀ one_le_two hk40) (by positivity) (by norm_num)
      _ < 2 ^ 63 := by norm_num
  have hproduct := Binary64.mul_ofInt_two_pow (x := (h : ℚ) / 100) (k := k) (by omega)
    (by rw [abs_of_nonneg hscaled]; exact hlt.le.trans (by norm_num))
  rw [stringToBytes_text formats memory htext hnonneg, hdouble, hunit, hproduct,
    Binary64.toLong_finite hscaled hlt, floor_roundFinite_hundredths hh hk]

/-- The text of hundredths of a unit. -/
def printedMemory (h : Nat) (letter : Option Char) (hletter : ∀ c ∈ letter, c.toUpper ∈ ['K', 'M', 'G', 'T']) :
    MemoryText where
  number := hundredthsLiteral h
  space := [' ']
  letter := letter
  b := some 'B'
  isSpace := isSpace_blank
  letter_mem := hletter
  b_eq := toUpper_B

theorem exists_letter {unit : MemoryUnit} (hunit : unit ∈ UNITS) :
    ∃ letter : Option Char, ∃ hletter : ∀ c ∈ letter, c.toUpper ∈ ['K', 'M', 'G', 'T'],
      unit.name.toList = letter.toList ++ ['B'] ∧
      ∀ h, (printedMemory h letter hletter).unitBytes = unit.bytes := by
  simp only [UNITS, List.mem_cons, List.not_mem_nil, or_false] at hunit
  rcases hunit with rfl | rfl | rfl | rfl | rfl
  · exact ⟨some 'T', forall_mem_some (by decide), rfl, fun _ => rfl⟩
  · exact ⟨some 'G', forall_mem_some (by decide), rfl, fun _ => rfl⟩
  · exact ⟨some 'M', forall_mem_some (by decide), rfl, fun _ => rfl⟩
  · exact ⟨some 'K', forall_mem_some (by decide), rfl, fun _ => rfl⟩
  · exact ⟨none, by simp, rfl, fun _ => rfl⟩

theorem roundEven_quotient {value : Int} (hlo : 0 ≤ value) :
    roundEven ((value : ℚ) / printedUnit value * 100) = hundredths value := by
  have hcast : (value : ℚ) / printedUnit value * 100 = ((100 * value : ℤ) : ℚ) / printedUnit value := by
    push_cast
    ring
  rw [hcast, roundEven_div _ (printedUnit_pos hlo)]
  by_cases hdown : RoundedDown value
  · rw [hundredths, if_pos hdown]
    exact if_pos hdown
  · rw [hundredths, if_neg hdown]
    exact if_neg hdown

theorem le_hundredths_of_large {value : Int} (hlarge : 2 ^ 53 ≤ value) : 100000 ≤ hundredths value := by
  obtain ⟨unit, hunit, hbytes, -⟩ := exists_printedUnit (by omega : 0 ≤ value)
  have hunitLe : printedUnit value ≤ 2 ^ 40 := by
    have hall : ∀ unit ∈ UNITS, unit.bytes ≤ 2 ^ 40 := by decide
    exact hbytes ▸ hall unit hunit
  have hquotient : 100000 ≤ 100 * value / printedUnit value :=
    Int.le_ediv_of_mul_le (printedUnit_pos (by omega)) (by omega)
  rw [hundredths]
  split <;> omega

/-- A value from a thousand units on is not read; a smaller one is read as its hundredths are. -/
theorem stringToBytes_bytesToString {value : Int} (hlo : 0 ≤ value) (hhi : value < 2 ^ 63) :
    ∃ text, bytesToString value = .ok text ∧
      (hundredths value < 100000 → stringToBytes formats (some text) =
        .ok (readHundredths (hundredths value) (printedUnit value))) ∧
      (100000 ≤ hundredths value → ∀ bytes, stringToBytes formats (some text) ≠ .ok bytes) := by
  obtain ⟨unit, hunit, y, hbytes, hprint, hy, hexact, hlarge⟩ := exists_printedNumber hlo hhi
  obtain ⟨k, hk, hpow⟩ := exists_bytes_eq hunit
  have hround : value < 2 ^ 53 → roundEven (y * 100) = hundredths value := by
    intro hsmall
    rw [hexact hsmall, ← hbytes, roundEven_quotient hlo]
  have hbeyond : 2 ^ 53 ≤ value → 100000 ≤ roundEven (y * 100) := by
    intro hge
    rw [← roundEven_intCast 100000]
    refine roundEven_mono ?_
    calc ((100000 : ℤ) : ℚ) ≤ 2 ^ 13 * 100 := by norm_num
      _ ≤ y * 100 := mul_le_mul_of_nonneg_right (hlarge hge) (by norm_num)
  refine ⟨_, hprint, ?_, ?_⟩
  · intro hlt
    have hsmall : value < 2 ^ 53 := by
      by_contra hge
      have hmany := le_hundredths_of_large (not_lt.mp hge)
      omega
    have hnonneg : 0 ≤ roundEven (y * 100) := by
      rw [← roundEven_intCast 0]
      exact roundEven_mono (by rw [Int.cast_zero]; positivity)
    obtain ⟨h, hh⟩ := Int.eq_ofNat_of_zero_le hnonneg
    have hcount : hundredths value = h := (hround hsmall).symm.trans hh
    obtain ⟨letter, hletter, hname, hletterBytes⟩ := exists_letter hunit
    have hrounded : (roundEven (y * 100)).toNat = h := by omega
    have htext : (decimalFormat (.finite y) ++ " " ++ unit.name).toList =
        (printedMemory h letter hletter).text := by
      rw [String.toList_append, String.toList_append, toList_decimalFormat hy hrounded (by omega), hname,
        List.append_assoc]
      rfl
    rw [hcount, hbytes, hpow]
    exact stringToBytes_hundredths formats (by omega) hk _ htext rfl ((hletterBytes h).trans hpow)
  · intro hmany bytes hread
    obtain ⟨memory, htext, -⟩ := (exists_ok_iff formats).mp ⟨bytes, hread⟩
    refine memory.comma_not_mem (htext ▸ ?_)
    have hcount : 100000 ≤ (roundEven (y * 100)).toNat := by
      by_cases hsmall : value < 2 ^ 53
      · rw [hround hsmall]
        omega
      · have hthousand := hbeyond (not_lt.mp hsmall)
        omega
    rw [String.toList_append, String.toList_append]
    exact List.mem_append_left _ (List.mem_append_left _ (comma_mem_decimalFormat hy hcount))

/-- What is printed of a value is read and differs from it by at most half a
hundredth of the unit, and not at all when it is printed in bytes. -/
def ReadsBack (value : Int) : Prop :=
  ∃ text bytes, bytesToString value = .ok text ∧ stringToBytes formats (some text) = .ok bytes ∧
    200 * |bytes - value| ≤ printedUnit value ∧ (printedUnit value = 1 → bytes = value)

theorem hundredths_lt_iff {value : Int} (hlo : 0 ≤ value) :
    hundredths value < 100000 ↔ 200 * value < 199999 * printedUnit value := by
  have hpos := printedUnit_pos hlo
  have hsplit := Int.mul_ediv_add_emod (100 * value) (printedUnit value)
  have hrest := Int.emod_nonneg (100 * value) hpos.ne'
  have hlt := Int.emod_lt_of_pos (100 * value) hpos
  have hfew : ∀ n : Int, 100 * value / printedUnit value ≤ n →
      printedUnit value * (100 * value / printedUnit value) ≤ printedUnit value * n := fun _ hn =>
    mul_le_mul_of_nonneg_left hn hpos.le
  have hmany : ∀ n : Int, n ≤ 100 * value / printedUnit value →
      printedUnit value * n ≤ printedUnit value * (100 * value / printedUnit value) := fun _ hn =>
    mul_le_mul_of_nonneg_left hn hpos.le
  by_cases hdown : RoundedDown value
  · rw [hundredths, if_pos hdown]
    constructor
    · intro h
      rcases (Int.lt_add_one_iff.mp h : 100 * value / printedUnit value ≤ 99999).lt_or_eq with hless | hequal
      · have hproduct := hfew 99998 (by omega)
        omega
      · -- The last number that is printed without a comma is odd: no tie is rounded down to it.
        have hstrict : 2 * (100 * value % printedUnit value) < printedUnit value :=
          hdown.resolve_right fun htie => by omega
        have hproduct := hfew 99999 hequal.le
        omega
    · intro h
      by_contra hcomma
      have hproduct := hmany 100000 (not_lt.mp hcomma)
      omega
  · rw [hundredths, if_neg hdown]
    have hhalf : printedUnit value ≤ 2 * (100 * value % printedUnit value) :=
      not_lt.mp fun hlow => hdown (.inl hlow)
    constructor
    · intro h
      have hproduct := hfew 99998 (by omega)
      omega
    · intro h
      by_contra hcomma
      have hproduct := hmany 99999 (by omega)
      omega

/-- A value that is printed in bytes is what is read. -/
theorem readHundredths_of_bytes {value : Int} (hunit : printedUnit value = 1) :
    readHundredths (hundredths value) (printedUnit value) = value := by
  have hdown : RoundedDown value := by
    rw [RoundedDown, hunit]
    omega
  rw [hundredths, if_pos hdown, hunit, readHundredths, if_neg (by omega)]
  omega

/-- A value is read back if and only if less than a thousand units are printed of
it and it is not cut too far, or this is made up for. -/
theorem readsBack_iff {value : Int} (hlo : 0 ≤ value) (hhi : value < 2 ^ 63) :
    ReadsBack formats value ↔
      200 * value < 199999 * printedUnit value ∧ (CutTooFar value → MadeUpFor value) := by
  obtain ⟨text, hprint, hread, hcomma⟩ := stringToBytes_bytesToString formats hlo hhi
  rw [← hundredths_lt_iff hlo, ← abs_readHundredths_sub_le_iff hlo]
  constructor
  · rintro ⟨text', bytes, hprint', hread', hclose, -⟩
    obtain rfl := Except.ok.inj (hprint.symm.trans hprint')
    have hlt : hundredths value < 100000 := by
      by_contra hlarge
      exact hcomma (not_lt.mp hlarge) bytes hread'
    obtain rfl := Except.ok.inj ((hread hlt).symm.trans hread')
    exact ⟨hlt, hclose⟩
  · rintro ⟨hlt, hclose⟩
    exact ⟨text, _, hprint, hread hlt, hclose, readHundredths_of_bytes⟩

/-- Half a kilobyte more than one is read back. -/
theorem readsBack_iff_oneAndAHalf : ReadsBack ⟨toString, fun _ => "", fun _ => ""⟩ 1536 :=
  (readsBack_iff ⟨toString, fun _ => "", fun _ => ""⟩ (by decide) (by decide)).mpr
    ⟨by decide, fun h => absurd h.2 (by decide)⟩

/-- "1,023 B" is printed of 1023 bytes, which is refused; of 1152 bytes "1.12 KB"
is printed, which is read as six bytes less. -/
theorem not_readsBack_thousandBytes :
    bytesToString 1023 = .ok "1,023 B" ∧ ¬ ReadsBack ⟨toString, fun _ => "", fun _ => ""⟩ 1023 ∧
      bytesToString 1152 = .ok "1.12 KB" ∧ ¬ ReadsBack ⟨toString, fun _ => "", fun _ => ""⟩ 1152 := by
  have hcomma : bytesToString 1023 = .ok "1,023 B" := by decide +kernel
  have hcut : bytesToString 1152 = .ok "1.12 KB" := by decide +kernel
  have hread : stringToBytes ⟨toString, fun _ => "", fun _ => ""⟩ (some "1.12 KB") = .ok 1146 := by
    decide +kernel
  refine ⟨hcomma, ?_, hcut, ?_⟩
  · rintro ⟨text, bytes, hprint, hrefused, -⟩
    obtain rfl := Except.ok.inj (hcomma.symm.trans hprint)
    cases hrefused
  · rintro ⟨text, bytes, hprint, hread', hclose, -⟩
    obtain rfl := Except.ok.inj (hcut.symm.trans hprint)
    obtain rfl := Except.ok.inj (hread.symm.trans hread')
    exact absurd hclose (by decide)

end roundTrip

end drelephant.util.MemoryFormatUtils
