import Mathlib.Algebra.Order.BigOperators.Group.List
import Mathlib.Algebra.Order.Field.Basic
import Mathlib.Data.Int.Log
import Mathlib.Data.Rat.Floor
import Mathlib.Tactic.Linarith
import Mathlib.Tactic.Positivity

namespace ieee

section roundEven

/-- The nearest integer; of two equally near ones the even one. -/
def roundEven (x : ℚ) : ℤ :=
  if x - ⌊x⌋ < 1 / 2 then ⌊x⌋
  else if 1 / 2 < x - ⌊x⌋ then ⌊x⌋ + 1
  else if ⌊x⌋ % 2 = 0 then ⌊x⌋ else ⌊x⌋ + 1

theorem floor_le_roundEven (x : ℚ) : ⌊x⌋ ≤ roundEven x := by
  unfold roundEven
  split_ifs <;> omega

theorem roundEven_le_floor_add_one (x : ℚ) : roundEven x ≤ ⌊x⌋ + 1 := by
  unfold roundEven
  split_ifs <;> omega

@[simp] theorem roundEven_intCast (n : ℤ) : roundEven n = n := by
  simp [roundEven]

/-- The nearest integer is no further away than half a unit. -/
theorem abs_roundEven_sub_le (x : ℚ) : |(roundEven x : ℚ) - x| ≤ 1 / 2 := by
  have hlo := Int.floor_le x
  have hhi := Int.lt_floor_add_one x
  rw [abs_le]
  unfold roundEven
  split_ifs <;> push_cast <;> constructor <;> linarith

theorem roundEven_mono {x y : ℚ} (h : x ≤ y) : roundEven x ≤ roundEven y := by
  have hfloor : ⌊x⌋ ≤ ⌊y⌋ := Int.floor_le_floor h
  rcases hfloor.lt_or_eq with hlt | heq
  · have hx := roundEven_le_floor_add_one x
    have hy := floor_le_roundEven y
    omega
  · -- Within one unit the fractions are ordered as the numbers are.
    unfold roundEven
    rw [heq]
    split_ifs <;> first | omega | linarith

theorem floor_div_eq (a : ℤ) {b : ℤ} (hb : 0 < b) : ⌊(a : ℚ) / b⌋ = a / b := by
  have hpos : (0 : ℚ) < b := by exact_mod_cast hb
  rw [Int.floor_eq_iff, le_div_iff₀ hpos, div_lt_iff₀ hpos]
  constructor
  · exact_mod_cast Int.ediv_mul_le a hb.ne'
  · exact_mod_cast Int.lt_ediv_add_one_mul_self a hb

/-- A quotient of integers is rounded by its remainder. -/
theorem roundEven_div (a : ℤ) {b : ℤ} (hb : 0 < b) : roundEven ((a : ℚ) / b) =
    if 2 * (a % b) < b ∨ 2 * (a % b) = b ∧ a / b % 2 = 0 then a / b else a / b + 1 := by
  have hpos : (0 : ℚ) < b := by exact_mod_cast hb
  have hfraction : (a : ℚ) / b - (a / b : ℤ) = (a % b : ℤ) / b := by
    rw [div_sub' hpos.ne', div_left_inj' hpos.ne']
    have hsplit := Int.mul_ediv_add_emod a b
    have hcast : (b : ℚ) * (a / b : ℤ) + (a % b : ℤ) = a := by exact_mod_cast hsplit
    linarith
  have hlow : (a : ℚ) / b - (a / b : ℤ) < 1 / 2 ↔ 2 * (a % b) < b := by
    rw [hfraction, div_lt_div_iff₀ hpos two_pos, one_mul, mul_comm]
    exact_mod_cast Iff.rfl
  have hhigh : 1 / 2 < (a : ℚ) / b - (a / b : ℤ) ↔ b < 2 * (a % b) := by
    rw [hfraction, div_lt_div_iff₀ two_pos hpos, one_mul, mul_comm]
    exact_mod_cast Iff.rfl
  unfold roundEven
  rw [floor_div_eq a hb]
  simp only [hlow, hhigh]
  split_ifs <;> omega

end roundEven

section roundFinite

/-- The exponent of the last place of a double near a value. -/
def exponent (x : ℚ) : ℤ := if x = 0 then -1074 else max (Int.log 2 |x| - 52) (-1074)

/-- Rounds to 53 significant bits, fewer near zero; the exponent has no upper bound. -/
def roundFinite (x : ℚ) : ℚ := roundEven (x / 2 ^ exponent x) * 2 ^ exponent x

@[simp] theorem exponent_neg (x : ℚ) : exponent (-x) = exponent x := by simp [exponent]

theorem exponent_mono {x y : ℚ} (h : |x| ≤ |y|) : exponent x ≤ exponent y := by
  unfold exponent
  by_cases hx : x = 0
  · rw [if_pos hx]
    split_ifs <;> omega
  · have hy : y ≠ 0 := by
      rintro rfl
      exact hx (abs_eq_zero.mp (le_antisymm (by simpa using h) (abs_nonneg x)))
    have hlog : Int.log 2 |x| ≤ Int.log 2 |y| := Int.log_mono_right (abs_pos.mpr hx) h
    rw [if_neg hx, if_neg hy]
    omega

private theorem ulp_pos (e : ℤ) : (0 : ℚ) < 2 ^ e := zpow_pos two_pos e

theorem exponent_le {x : ℚ} {e : ℤ} (hx : |x| < 2 ^ (e + 53)) (he : -1074 ≤ e) : exponent x ≤ e := by
  unfold exponent
  split_ifs with hzero
  · exact he
  · have hlog : Int.log 2 |x| < e + 53 :=
      (Int.lt_zpow_iff_log_lt (by omega) (abs_pos.mpr hzero)).mp (by exact_mod_cast hx)
    omega

theorem le_exponent {x : ℚ} {e : ℤ} (hx : 2 ^ (e + 52) ≤ |x|) : e ≤ exponent x := by
  have hpos : 0 < |x| := (zpow_pos two_pos _).trans_le hx
  have hlog : e + 52 ≤ Int.log 2 |x| := (Int.zpow_le_iff_le_log (by omega) hpos).mp (by exact_mod_cast hx)
  rw [exponent, if_neg (abs_pos.mp hpos)]
  omega

/-- A value is not rounded past a multiple of its last place. -/
theorem le_roundFinite {k : ℤ} {x : ℚ} (h : k * 2 ^ exponent x ≤ x) :
    k * 2 ^ exponent x ≤ roundFinite x := by
  have hk : (k : ℚ) ≤ x / 2 ^ exponent x := (le_div_iff₀ (ulp_pos _)).mpr h
  have hround : k ≤ roundEven (x / 2 ^ exponent x) := by
    simpa using roundEven_mono hk
  exact mul_le_mul_of_nonneg_right (by exact_mod_cast hround) (ulp_pos _).le

theorem roundFinite_le {k : ℤ} {x : ℚ} (h : x ≤ k * 2 ^ exponent x) :
    roundFinite x ≤ k * 2 ^ exponent x := by
  have hk : x / 2 ^ exponent x ≤ k := (div_le_iff₀ (ulp_pos _)).mpr h
  have hround : roundEven (x / 2 ^ exponent x) ≤ k := by
    simpa using roundEven_mono hk
  exact mul_le_mul_of_nonneg_right (by exact_mod_cast hround) (ulp_pos _).le

/-- A multiple of any power of two at or above the last place is one of the last place. -/
private theorem scale (k : ℤ) {e e' : ℤ} (h : e ≤ e') :
    ∃ k' : ℤ, (k : ℚ) * 2 ^ e' = k' * 2 ^ e := by
  obtain ⟨n, rfl⟩ := Int.le.dest h
  refine ⟨k * 2 ^ n, ?_⟩
  push_cast
  rw [zpow_add₀ two_ne_zero, zpow_natCast]
  ring

/-- Rounding does not take a value past an integer number of parts that are no
smaller than its last place. -/
theorem floor_le_roundFinite_mul {x : ℚ} {k : ℕ} (h : exponent x ≤ -k) :
    ⌊x * 2 ^ k⌋ ≤ roundFinite x * 2 ^ k ∧ roundFinite x * 2 ^ k ≤ ⌈x * 2 ^ k⌉ := by
  have hpos : (0 : ℚ) < 2 ^ k := by positivity
  have hpart : ∀ n : ℤ, (n : ℚ) * 2 ^ (-k : ℤ) = n / 2 ^ k := by
    intro n
    rw [zpow_neg, zpow_natCast, div_eq_mul_inv]
  constructor
  · obtain ⟨n, hn⟩ := scale ⌊x * 2 ^ k⌋ h
    rw [← div_le_iff₀ hpos, ← hpart, hn]
    refine le_roundFinite ?_
    rw [← hn, hpart, div_le_iff₀ hpos]
    exact Int.floor_le _
  · obtain ⟨n, hn⟩ := scale ⌈x * 2 ^ k⌉ h
    rw [← le_div_iff₀ hpos, ← hpart, hn]
    refine roundFinite_le ?_
    rw [← hn, hpart, le_div_iff₀ hpos]
    exact Int.le_ceil _

/-- What fits in 53 bits is not rounded. -/
theorem roundFinite_of_exponent_le {k e : ℤ} {x : ℚ} (hx : x = k * 2 ^ e) (h : exponent x ≤ e) :
    roundFinite x = x := by
  obtain ⟨k', hk'⟩ := scale k h
  rw [← hx] at hk'
  rw [roundFinite, show x / 2 ^ exponent x = k' by rw [div_eq_iff (ulp_pos _).ne']; exact hk',
    roundEven_intCast, ← hk']

@[simp] theorem roundFinite_zero : roundFinite 0 = 0 :=
  roundFinite_of_exponent_le (k := 0) (e := exponent 0) (by simp) le_rfl

/-- Between two values with different last places lies a power of two that
neither is rounded past. -/
private theorem between {x y : ℚ} (h : exponent x < exponent y) :
    ∃ b : ℤ, |x| ≤ 2 ^ b ∧ 2 ^ b ≤ |y| ∧ exponent y ≤ b := by
  have hy : y ≠ 0 := by
    rintro rfl
    have hleast : -1074 ≤ exponent x := by
      unfold exponent
      split_ifs <;> omega
    rw [show exponent 0 = -1074 from if_pos rfl] at h
    omega
  have hlog : exponent y = Int.log 2 |y| - 52 := by
    unfold exponent at h ⊢
    rw [if_neg hy] at h ⊢
    split_ifs at h <;> omega
  refine ⟨Int.log 2 |y|, ?_, ?_, by omega⟩
  · by_contra hcontra
    -- Otherwise the logarithm of `x` would not be the smaller one.
    have hx : x ≠ 0 := by
      rintro rfl
      exact hcontra (by simpa using (ulp_pos _).le)
    have hle : Int.log 2 |y| ≤ Int.log 2 |x| :=
      (Int.zpow_le_iff_le_log (by omega) (abs_pos.mpr hx)).mp (by push_cast; exact (not_le.mp hcontra).le)
    unfold exponent at h
    rw [if_neg hy, if_neg hx] at h
    omega
  · have := Int.zpow_log_le_self (b := 2) (by omega) (abs_pos.mpr hy)
    push_cast at this
    exact this

/-- Rounding keeps the order. -/
theorem roundFinite_mono {x y : ℚ} (h : x ≤ y) : roundFinite x ≤ roundFinite y := by
  rcases lt_trichotomy (exponent x) (exponent y) with hlt | heq | hgt
  · obtain ⟨b, hxb, hby, hb⟩ := between hlt
    have hy : 2 ^ b ≤ y := by
      rcases le_total 0 y with hy | hy
      · rwa [abs_of_nonneg hy] at hby
      · -- A negative `y` would be the smaller of the two in absolute value.
        have habs : |y| ≤ |x| := by
          rw [abs_of_nonpos hy, abs_of_nonpos (h.trans hy)]
          linarith
        exact absurd (exponent_mono habs) (by omega)
    obtain ⟨k, hk⟩ := scale 1 (show exponent x ≤ b by omega)
    obtain ⟨k', hk'⟩ := scale 1 hb
    rw [Int.cast_one, one_mul] at hk hk'
    calc roundFinite x ≤ k * 2 ^ exponent x :=
          roundFinite_le (by rw [← hk]; exact (le_abs_self x).trans hxb)
      _ = 2 ^ b := hk.symm
      _ = k' * 2 ^ exponent y := hk'
      _ ≤ roundFinite y := le_roundFinite (by rwa [← hk'])
  · have hdiv : x / 2 ^ exponent x ≤ y / 2 ^ exponent x :=
      div_le_div_of_nonneg_right h (ulp_pos _).le
    have hround := roundEven_mono hdiv
    unfold roundFinite
    rw [← heq]
    exact mul_le_mul_of_nonneg_right (by exact_mod_cast hround) (ulp_pos _).le
  · obtain ⟨b, hyb, hbx, hb⟩ := between hgt
    have hx : x ≤ -2 ^ b := by
      rcases le_total 0 x with hx | hx
      · have habs : |x| ≤ |y| := by
          rwa [abs_of_nonneg hx, abs_of_nonneg (hx.trans h)]
        exact absurd (exponent_mono habs) (by omega)
      · rw [abs_of_nonpos hx] at hbx
        linarith
    obtain ⟨k, hk⟩ := scale (-1) hb
    obtain ⟨k', hk'⟩ := scale (-1) (show exponent y ≤ b by omega)
    rw [Int.cast_neg, Int.cast_one, neg_one_mul] at hk hk'
    calc roundFinite x ≤ k * 2 ^ exponent x := roundFinite_le (by rwa [← hk])
      _ = -2 ^ b := hk.symm
      _ = k' * 2 ^ exponent y := hk'
      _ ≤ roundFinite y :=
          le_roundFinite (by rw [← hk']; linarith [neg_abs_le y])

/-- Integers up to `2 ^ 53` are doubles. -/
theorem roundFinite_intCast {n : ℤ} (h : |n| ≤ 2 ^ 53) : roundFinite (n : ℚ) = n := by
  rcases h.lt_or_eq with hlt | heq
  · refine roundFinite_of_exponent_le (k := n) (e := 0) (by simp) ?_
    unfold exponent
    split_ifs with hn
    · omega
    · have hlog : Int.log 2 |(n : ℚ)| < 53 := by
        rw [← Int.lt_zpow_iff_log_lt (by omega) (abs_pos.mpr hn)]
        exact_mod_cast hlt
      omega
  · have hpow : |(n : ℚ)| = 2 ^ (53 : ℤ) := by exact_mod_cast heq
    have hexponent : exponent (n : ℚ) = 1 := by
      have hne : (n : ℚ) ≠ 0 := by
        rintro hzero
        rw [hzero] at hpow
        norm_num at hpow
      have hlog : Int.log 2 |(n : ℚ)| = 53 := by
        rw [hpow]
        exact_mod_cast Int.log_zpow (R := ℚ) (b := 2) (by omega) 53
      rw [exponent, if_neg hne, hlog]
      rfl
    rcases abs_choice (n : ℚ) with hsign | hsign
    · exact roundFinite_of_exponent_le (k := 1) (e := 53) (by rw [← hpow, hsign]; simp) (by omega)
    · exact roundFinite_of_exponent_le (k := -1) (e := 53) (by rw [← hpow, hsign]; simp) (by omega)

/-- Rounding changes a value by half its last place at most. -/
theorem abs_roundFinite_sub_le (x : ℚ) : |roundFinite x - x| ≤ 2 ^ exponent x / 2 := by
  have hpos : (0 : ℚ) < 2 ^ exponent x := zpow_pos two_pos _
  have hround := abs_roundEven_sub_le (x / 2 ^ exponent x)
  have hscaled : roundFinite x - x =
      (roundEven (x / 2 ^ exponent x) - x / 2 ^ exponent x) * 2 ^ exponent x := by
    rw [sub_mul, div_mul_cancel₀ _ hpos.ne', roundFinite]
  calc |roundFinite x - x|
      = |(roundEven (x / 2 ^ exponent x) : ℚ) - x / 2 ^ exponent x| * 2 ^ exponent x := by
        rw [hscaled, abs_mul, abs_of_pos hpos]
    _ ≤ 1 / 2 * 2 ^ exponent x := mul_le_mul_of_nonneg_right hround hpos.le
    _ = 2 ^ exponent x / 2 := by ring

/-- The last place is small against the value, unless that is next to zero. -/
theorem zpow_exponent_le {x : ℚ} (hx : 2 ^ (-1022 : ℤ) ≤ |x|) :
    (2 : ℚ) ^ exponent x ≤ |x| / 2 ^ (52 : ℤ) := by
  have hpos : 0 < |x| := (zpow_pos two_pos _).trans_le hx
  have hlog : -1022 ≤ Int.log 2 |x| :=
    (Int.zpow_le_iff_le_log (by omega) hpos).mp (by exact_mod_cast hx)
  have hle := Int.zpow_log_le_self (b := 2) (by omega) hpos
  push_cast at hle
  rw [exponent, if_neg (abs_pos.mp hpos), max_eq_left (by omega), zpow_sub₀ two_ne_zero]
  exact div_le_div_of_nonneg_right hle (by positivity)

/-- Rounding a quotient of integers does not reach the next integer. -/
theorem floor_roundFinite_div {m n : ℤ} (hm : 0 ≤ m) (hbound : m < 2 ^ 53) (hn : 0 < n)
    (hn' : n ≤ 2 ^ 53) : ⌊roundFinite ((m : ℚ) / n)⌋ = m / n := by
  have hnpos : (0 : ℚ) < n := by exact_mod_cast hn
  have hquotient : |m / n| ≤ 2 ^ 53 := by
    rw [abs_of_nonneg (Int.ediv_nonneg hm hn.le)]
    exact (Int.ediv_le_self n hm).trans hbound.le
  rw [Int.floor_eq_iff]
  constructor
  · rw [← roundFinite_intCast hquotient]
    refine roundFinite_mono ((le_div_iff₀ hnpos).mpr ?_)
    exact_mod_cast Int.ediv_mul_le m hn.ne'
  · -- The quotient misses the next integer by one n-th, and rounding adds less.
    have hgap : (m : ℚ) / n + 1 / n ≤ (m / n : ℤ) + 1 := by
      rw [← add_div, div_le_iff₀ hnpos]
      have hlt := Int.lt_ediv_add_one_mul_self m hn
      exact_mod_cast (show m + 1 ≤ (m / n + 1) * n by omega)
    have herror : roundFinite ((m : ℚ) / n) - m / n < 1 / n := by
      rcases hm.eq_or_lt with rfl | hmpos
      · simpa using hnpos
      · have hone : (1 : ℚ) ≤ m := by exact_mod_cast hmpos
        have hlarge : (n : ℚ) ≤ 2 ^ (53 : ℤ) := by exact_mod_cast hn'
        have hpos : (0 : ℚ) < m / n := div_pos (one_pos.trans_le hone) hnpos
        have hnormal : (2 : ℚ) ^ (-1022 : ℤ) ≤ |(m : ℚ) / n| := by
          rw [abs_of_pos hpos, le_div_iff₀ hnpos]
          calc (2 : ℚ) ^ (-1022 : ℤ) * n ≤ 2 ^ (-53 : ℤ) * 2 ^ (53 : ℤ) :=
                mul_le_mul (zpow_le_zpow_right₀ one_le_two (by omega)) hlarge hnpos.le
                  (zpow_pos two_pos _).le
            _ = 1 := by rw [← zpow_add₀ two_ne_zero]; rfl
            _ ≤ m := hone
        have hulp := zpow_exponent_le hnormal
        rw [abs_of_pos hpos] at hulp
        have hsmall : (m : ℚ) < 2 ^ (53 : ℤ) := by exact_mod_cast hbound
        calc roundFinite ((m : ℚ) / n) - m / n
            ≤ 2 ^ exponent ((m : ℚ) / n) / 2 := (le_abs_self _).trans (abs_roundFinite_sub_le _)
          _ ≤ m / n / 2 ^ (52 : ℤ) / 2 := div_le_div_of_nonneg_right hulp two_pos.le
          _ = m / 2 ^ (53 : ℤ) / n := by ring
          _ < 1 / n := div_lt_div_of_pos_right ((div_lt_one (by positivity)).mpr hsmall) hnpos
    linarith

/-- What was rounded is not rounded again. -/
theorem roundFinite_roundFinite (x : ℚ) : roundFinite (roundFinite x) = roundFinite x := by
  have hleast : -1074 ≤ exponent x := by
    unfold exponent
    split_ifs <;> omega
  have hpow : (2 : ℚ) ^ (exponent x + 53) = ((2 ^ 53 : ℤ) : ℚ) * 2 ^ exponent x := by
    rw [zpow_add₀ two_ne_zero, mul_comm]
    norm_cast
  have hx : |x| ≤ 2 ^ (exponent x + 53) := by
    by_cases hzero : x = 0
    · rw [hzero, abs_zero]
      exact (zpow_pos two_pos _).le
    · have hlt := Int.lt_zpow_succ_log_self (b := 2) (by omega) |x|
      have hlog : Int.log 2 |x| - 52 ≤ exponent x := by
        rw [exponent, if_neg hzero]
        exact le_max_left _ _
      push_cast at hlt
      exact hlt.le.trans (zpow_le_zpow_right₀ one_le_two (by omega))
  obtain ⟨hlo, hhi⟩ := abs_le.mp hx
  have habs : |roundFinite x| ≤ 2 ^ (exponent x + 53) := by
    refine abs_le.mpr ⟨?_, ?_⟩
    · rw [hpow, ← neg_mul, ← Int.cast_neg] at hlo ⊢
      exact le_roundFinite hlo
    · rw [hpow] at hhi ⊢
      exact roundFinite_le hhi
  rcases habs.lt_or_eq with hlt | heq
  · refine roundFinite_of_exponent_le (e := exponent x) rfl ?_
    by_cases hzero : roundFinite x = 0
    · rw [hzero, exponent, if_pos rfl]
      exact hleast
    · have hlog : Int.log 2 |roundFinite x| < exponent x + 53 :=
        (Int.lt_zpow_iff_log_lt (by omega) (abs_pos.mpr hzero)).mp (by exact_mod_cast hlt)
      rw [exponent, if_neg hzero]
      omega
  · -- The value was rounded up to the next power of two.
    have hexponent : exponent (roundFinite x) ≤ exponent x + 53 := by
      have hlog := Int.log_zpow (R := ℚ) (b := 2) (by omega) (exponent x + 53)
      push_cast at hlog
      rw [exponent, heq, hlog]
      split_ifs <;> omega
    rcases abs_choice (roundFinite x) with hsign | hsign
    · exact roundFinite_of_exponent_le (k := 1) (by rw [← heq, hsign]; simp) hexponent
    · exact roundFinite_of_exponent_le (k := -1) (by rw [← heq, hsign]; simp) hexponent

private theorem exponent_beyond {x : ℚ} (h : |x| = 2 ^ (128 : ℤ) + 2 ^ (63 : ℤ)) :
    exponent x = 76 := by
  have hx : x ≠ 0 := by
    rintro rfl
    norm_num at h
  have hlo : 128 ≤ Int.log 2 |x| := by
    rw [← Int.zpow_le_iff_le_log (by omega) (abs_pos.mpr hx), h]
    norm_num
  have hhi : Int.log 2 |x| < 129 := by
    rw [← Int.lt_zpow_iff_log_lt (by omega) (abs_pos.mpr hx), h]
    norm_num
  rw [exponent, if_neg hx]
  omega

/-- Far beyond the 64-bit integers, adding one of them changes nothing: a sum
of any number of them stays below a fixed bound. -/
theorem roundFinite_absorbs {x : ℚ} (h : |x| ≤ 2 ^ (128 : ℤ) + 2 ^ (63 : ℤ)) :
    |roundFinite x| ≤ 2 ^ (128 : ℤ) := by
  have hup : roundFinite (2 ^ (128 : ℤ) + 2 ^ (63 : ℤ)) = 2 ^ (128 : ℤ) := by
    rw [roundFinite, exponent_beyond (abs_of_pos (by positivity)),
      show roundEven ((2 ^ (128 : ℤ) + 2 ^ (63 : ℤ)) / 2 ^ (76 : ℤ)) = 2 ^ 52 by
        norm_num [roundEven, Int.floor_eq_iff]]
    norm_num
  have hdown : roundFinite (-(2 ^ (128 : ℤ) + 2 ^ (63 : ℤ))) = -2 ^ (128 : ℤ) := by
    rw [roundFinite, exponent_beyond (by rw [abs_neg, abs_of_pos (by positivity)]),
      show roundEven (-(2 ^ (128 : ℤ) + 2 ^ (63 : ℤ)) / 2 ^ (76 : ℤ)) = -2 ^ 52 by
        norm_num [roundEven, Int.floor_eq_iff]]
    norm_num
  obtain ⟨hlo, hhi⟩ := abs_le.mp h
  exact abs_le.mpr ⟨hdown.symm.le.trans (roundFinite_mono hlo), (roundFinite_mono hhi).trans hup.le⟩

end roundFinite

/-- A double. The zeros are one value, as are the NaNs. -/
inductive Binary64
  | nan
  | negInf
  | finite (value : ℚ)
  | posInf
  deriving DecidableEq, Repr

namespace Binary64

/-- The nearest double, an infinity for what is too large. -/
def ofRat (x : ℚ) : Binary64 :=
  if 2 ^ (1024 : ℤ) ≤ roundFinite x then posInf
  else if roundFinite x ≤ -2 ^ (1024 : ℤ) then negInf
  else finite (roundFinite x)

/-- The conversion of an integer. -/
def ofInt (n : ℤ) : Binary64 := ofRat n

def add : Binary64 → Binary64 → Binary64
  | finite x, finite y => ofRat (x + y)
  | nan, _ => nan
  | _, nan => nan
  | posInf, negInf => nan
  | negInf, posInf => nan
  | posInf, _ => posInf
  | _, posInf => posInf
  | negInf, _ => negInf
  | _, negInf => negInf

/-- The infinity with the sign of a number. -/
def infinity (x : ℚ) : Binary64 := if 0 ≤ x then posInf else negInf

def neg : Binary64 → Binary64
  | nan => nan
  | negInf => posInf
  | finite x => finite (-x)
  | posInf => negInf

def mul : Binary64 → Binary64 → Binary64
  | finite x, finite y => ofRat (x * y)
  | nan, _ => nan
  | _, nan => nan
  | posInf, finite y => if y = 0 then nan else infinity y
  | negInf, finite y => if y = 0 then nan else infinity (-y)
  | finite x, posInf => if x = 0 then nan else infinity x
  | finite x, negInf => if x = 0 then nan else infinity (-x)
  | posInf, posInf => posInf
  | negInf, negInf => posInf
  | posInf, negInf => negInf
  | negInf, posInf => negInf

def div : Binary64 → Binary64 → Binary64
  | finite x, finite y =>
    if y = 0 then if x = 0 then nan else infinity x else ofRat (x / y)
  | nan, _ => nan
  | _, nan => nan
  | posInf, finite y => infinity y
  | negInf, finite y => if 0 ≤ y then negInf else posInf
  | finite _, posInf => finite 0
  | finite _, negInf => finite 0
  | _, _ => nan

/-- The comparison `a <= b`, false when there is a NaN. -/
def le : Binary64 → Binary64 → Bool
  | nan, _ => false
  | _, nan => false
  | negInf, _ => true
  | _, posInf => true
  | finite x, finite y => x ≤ y
  | _, _ => false

/-- The comparison `a < b`, false when there is a NaN. -/
def lt (a b : Binary64) : Bool := a.le b && !b.le a

/-- The part of a number before the point. -/
def truncate (x : ℚ) : ℤ := if 0 ≤ x then ⌊x⌋ else ⌈x⌉

/-- The conversion to a signed 64-bit integer, which saturates. -/
def toLong : Binary64 → ℤ
  | nan => 0
  | negInf => -2 ^ 63
  | posInf => 2 ^ 63 - 1
  | finite x => max (-2 ^ 63) (min (2 ^ 63 - 1) (truncate x))

section order

@[simp] theorem not_nan_le (a : Binary64) : le nan a = false := rfl

@[simp] theorem not_le_nan (a : Binary64) : le a nan = false := by cases a <;> rfl

@[simp] theorem finite_le_finite {x y : ℚ} : le (finite x) (finite y) = true ↔ x ≤ y := by
  simp [le]

theorem le_refl {a : Binary64} (h : a ≠ nan) : le a a = true := by
  cases a with
  | nan => exact absurd rfl h
  | _ => simp [le]

theorem le_trans {a b c : Binary64} (hab : le a b = true) (hbc : le b c = true) :
    le a c = true := by
  cases a <;> cases b <;> cases c <;> simp_all [le]
  exact hab.trans hbc

theorem lt_of_lt_of_le {a b c : Binary64} (hab : lt a b = true) (hbc : le b c = true) : lt a c = true := by
  rw [lt, Bool.and_eq_true, Bool.not_eq_true', Bool.eq_false_iff] at hab ⊢
  obtain ⟨hle, hnot⟩ := hab
  exact ⟨le_trans hle hbc, fun hca => hnot (le_trans hbc hca)⟩

theorem ofRat_mono {x y : ℚ} (h : x ≤ y) : le (ofRat x) (ofRat y) = true := by
  have hround := roundFinite_mono h
  unfold ofRat
  split_ifs
  all_goals first | rfl | simp only [le, decide_eq_true_eq]
  all_goals linarith

theorem ofInt_mono {m n : ℤ} (h : m ≤ n) : le (ofInt m) (ofInt n) = true :=
  ofRat_mono (by exact_mod_cast h)

theorem truncate_mono {x y : ℚ} (h : x ≤ y) : truncate x ≤ truncate y := by
  unfold truncate
  split_ifs with hx hy hy
  · exact Int.floor_le_floor h
  · linarith
  · exact (Int.ceil_le.mpr (by push_cast; linarith)).trans (Int.floor_nonneg.mpr hy)
  · exact Int.ceil_le_ceil h

theorem toLong_mono {a b : Binary64} (h : le a b = true) : toLong a ≤ toLong b := by
  cases a <;> cases b <;> simp_all only [le, toLong, Bool.false_eq_true, decide_eq_true_eq] <;>
    first | omega | skip
  have := truncate_mono h
  omega

theorem toLong_range (a : Binary64) : -2 ^ 63 ≤ toLong a ∧ toLong a ≤ 2 ^ 63 - 1 := by
  cases a <;> simp only [toLong] <;> omega

theorem toLong_nonneg {a : Binary64} (h : le (finite 0) a = true) : 0 ≤ toLong a := by
  simpa [toLong, truncate] using toLong_mono h

end order

section finite

theorem ofRat_of_abs_le {x : ℚ} (h : |roundFinite x| ≤ 2 ^ (128 : ℤ)) :
    ofRat x = finite (roundFinite x) := by
  obtain ⟨hlo, hhi⟩ := abs_le.mp h
  have hbound : (2 : ℚ) ^ (128 : ℤ) < 2 ^ (1024 : ℤ) :=
    zpow_lt_zpow_right₀ one_lt_two (by omega)
  rw [ofRat, if_neg (not_le.mpr (hhi.trans_lt hbound)),
    if_neg (not_le.mpr ((neg_lt_neg hbound).trans_le hlo))]

/-- Integers up to `2 ^ 53` are converted exactly. -/
theorem ofInt_eq_finite {n : ℤ} (h : |n| ≤ 2 ^ 53) : ofInt n = finite n := by
  have hround := roundFinite_intCast h
  have hbound : |(n : ℚ)| ≤ 2 ^ (53 : ℤ) := by exact_mod_cast h
  rw [ofInt, ofRat_of_abs_le, hround]
  rw [hround]
  exact hbound.trans (by norm_num)

private theorem exponent_two_zpow {e : ℤ} (h : -1022 ≤ e) : exponent (2 ^ e) = e - 52 := by
  have hlog := Int.log_zpow (R := ℚ) (b := 2) (by omega) e
  push_cast at hlog
  rw [exponent, if_neg (ulp_pos e).ne', abs_of_pos (ulp_pos e), hlog]
  omega

/-- The conversion of a signed 64-bit integer. -/
theorem ofInt_of_range {n : ℤ} (hlo : -2 ^ 63 ≤ n) (hhi : n ≤ 2 ^ 63) :
    ofInt n = finite (roundFinite n) ∧ |roundFinite n| ≤ 2 ^ (63 : ℤ) := by
  have hup : roundFinite (2 ^ (63 : ℤ)) = 2 ^ (63 : ℤ) :=
    roundFinite_of_exponent_le (k := 1) (e := 63) (by simp) (by rw [exponent_two_zpow] <;> omega)
  have hdown : roundFinite (-2 ^ (63 : ℤ)) = -2 ^ (63 : ℤ) :=
    roundFinite_of_exponent_le (k := -1) (e := 63) (by simp)
      (by rw [exponent_neg, exponent_two_zpow] <;> omega)
  have hbound : |roundFinite n| ≤ 2 ^ (63 : ℤ) :=
    abs_le.mpr ⟨hdown.symm.le.trans (roundFinite_mono (by exact_mod_cast hlo)),
      (roundFinite_mono (by exact_mod_cast hhi)).trans hup.le⟩
  exact ⟨ofRat_of_abs_le (hbound.trans (by norm_num)), hbound⟩

theorem roundFinite_nonneg {x : ℚ} (h : 0 ≤ x) : 0 ≤ roundFinite x := by
  simpa using roundFinite_mono h

/-- A positive integer is not rounded to zero. -/
theorem roundFinite_pos {n : ℤ} (h : 0 < n) : 0 < roundFinite n := by
  have hone : roundFinite ((1 : ℤ) : ℚ) ≤ roundFinite n := roundFinite_mono (by exact_mod_cast h)
  rw [roundFinite_intCast (by norm_num)] at hone
  push_cast at hone
  linarith

theorem div_mono {x y z : ℚ} (hxy : x ≤ y) (hz : 0 < z) :
    le (div (finite x) (finite z)) (div (finite y) (finite z)) = true := by
  simp only [div, if_neg hz.ne']
  exact ofRat_mono (div_le_div_of_nonneg_right hxy hz.le)

/-- A positive integer is converted to a positive number, be it an infinite one. -/
private theorem ofInt_of_pos {n : ℤ} (h : 0 < n) :
    ofInt n = posInf ∨ ∃ z, ofInt n = finite z ∧ 0 < z := by
  have hpos := roundFinite_pos h
  have hbound : -2 ^ (1024 : ℤ) < roundFinite n :=
    (neg_neg_of_pos (ulp_pos _)).trans hpos
  rw [ofInt, ofRat]
  split_ifs with hlarge hsmall
  · exact .inl rfl
  · exact absurd hsmall (not_le.mpr hbound)
  · exact .inr ⟨_, rfl, hpos⟩

theorem div_ofInt_mono {x y : ℚ} {n : ℤ} (hxy : x ≤ y) (hn : 0 < n) :
    le (div (finite x) (ofInt n)) (div (finite y) (ofInt n)) = true := by
  rcases ofInt_of_pos hn with hinf | ⟨z, hz, hpos⟩
  · rw [hinf]
    exact le_refl (by simp [div])
  · rw [hz]
    exact div_mono hxy hpos

theorem ofInt_div_ofInt_mono {m n k : ℤ} (hlo : -2 ^ 63 ≤ m) (h : m ≤ n) (hhi : n ≤ 2 ^ 63) (hk : 0 < k) :
    le (div (ofInt m) (ofInt k)) (div (ofInt n) (ofInt k)) = true := by
  obtain ⟨hm, -⟩ := ofInt_of_range hlo (h.trans hhi)
  obtain ⟨hn, -⟩ := ofInt_of_range (hlo.trans h) hhi
  rw [hm, hn]
  exact div_ofInt_mono (roundFinite_mono (by exact_mod_cast h)) hk

private theorem div_zero_of_pos {z : ℚ} (hz : 0 < z) : div (finite 0) (finite z) = finite 0 := by
  rw [div, if_neg hz.ne', zero_div, ofRat_of_abs_le (by simp), roundFinite_zero]

theorem zero_le_div_ofInt {y : ℚ} {n : ℤ} (hy : 0 ≤ y) (hn : 0 < n) :
    le (finite 0) (div (finite y) (ofInt n)) = true := by
  have hzero : div (finite 0) (ofInt n) = finite 0 := by
    rcases ofInt_of_pos hn with hinf | ⟨z, hz, hpos⟩
    · rw [hinf]
      rfl
    · rw [hz, div_zero_of_pos hpos]
  rw [← hzero]
  exact div_ofInt_mono hy hn

/-- The quotient of a positive number is not negative, whether the divisor is zero or not. -/
theorem zero_le_div {y z : ℚ} (hy : 0 < y) (hz : 0 ≤ z) :
    le (finite 0) (div (finite y) (finite z)) = true := by
  rcases hz.eq_or_lt with rfl | hpos
  · simp [div, infinity, hy.ne', hy.le, le]
  · rw [← div_zero_of_pos hpos]
    exact div_mono hy.le hpos

/-- With a divisor that may be zero the smaller quotient may be no number. -/
theorem div_mono_or_nan {x y z : ℚ} (hx : 0 ≤ x) (hxy : x ≤ y) (hz : 0 ≤ z) :
    div (finite x) (finite z) = nan ∨
      le (div (finite x) (finite z)) (div (finite y) (finite z)) = true := by
  rcases hz.eq_or_lt with rfl | hpos
  · rcases hx.eq_or_lt with rfl | hxpos
    · exact .inl (by simp [div])
    · refine .inr ?_
      simp [div, hxpos.ne', (hxpos.trans_le hxy).ne', infinity, hx, hx.trans hxy, le]
  · exact .inr (div_mono hxy hpos)

theorem div_ne_nan {x z : ℚ} (h : x ≠ 0 ∨ z ≠ 0) : div (finite x) (finite z) ≠ nan := by
  simp only [div, infinity, ofRat]
  split_ifs <;> simp_all

/-- The quotient of a sum that is held exactly, without its fraction. -/
theorem toLong_div_ofInt {m n : ℤ} (hm : 0 ≤ m) (hbound : m < 2 ^ 53) (hn : 0 < n) :
    toLong (div (finite m) (ofInt n)) = m / n := by
  have htoLong : ∀ x : ℚ, 0 ≤ roundFinite x → ⌊roundFinite x⌋ = m / n →
      toLong (ofRat x) = m / n := by
    intro x hx hfloor
    have hsmall : m / n ≤ m := Int.ediv_le_self n hm
    have hnonneg : 0 ≤ m / n := Int.ediv_nonneg hm hn.le
    have hlt : roundFinite x < 2 ^ (53 : ℤ) := by
      have := Int.lt_floor_add_one (roundFinite x)
      rw [hfloor] at this
      exact this.trans_le (by exact_mod_cast (show m / n + 1 ≤ 2 ^ 53 by omega))
    rw [ofRat_of_abs_le (by rw [abs_of_nonneg hx]; exact hlt.le.trans (by norm_num)), toLong, truncate,
      if_pos hx, hfloor]
    omega
  have hmrat : (0 : ℚ) ≤ m := by exact_mod_cast hm
  rcases le_or_gt n (2 ^ 53) with hle | hgt
  · have hnrat : (0 : ℚ) < n := by exact_mod_cast hn
    rw [ofInt_eq_finite (by rwa [abs_of_pos hn]), div, if_neg hnrat.ne']
    exact htoLong _ (roundFinite_nonneg (div_nonneg hmrat hnrat.le)) (floor_roundFinite_div hm hbound hn hle)
  · -- Beyond the exact integers the divisor may be rounded, but not below them.
    have hzero : m / n = 0 := Int.ediv_eq_zero_of_lt hm (hbound.trans hgt)
    rcases ofInt_of_pos hn with hinf | ⟨z, hz, hzpos⟩
    · rw [hinf, hzero]
      simp [div, toLong, truncate]
    · have hlarge : (2 ^ 53 : ℤ) ≤ z := by
        have hmono := ofInt_mono hgt.le
        rw [hz, ofInt_eq_finite (by decide)] at hmono
        exact finite_le_finite.mp hmono
      rw [hz, div, if_neg hzpos.ne']
      have hquotient : (m : ℚ) / z ≤ m / (2 ^ 53 : ℤ) :=
        div_le_div_of_nonneg_left hmrat (by norm_num) hlarge
      have hnonneg := roundFinite_nonneg (div_nonneg hmrat hzpos.le)
      refine htoLong _ hnonneg (le_antisymm ?_ (by rw [hzero]; exact Int.floor_nonneg.mpr hnonneg))
      calc ⌊roundFinite (m / z)⌋ ≤ ⌊roundFinite ((m : ℚ) / (2 ^ 53 : ℤ))⌋ :=
            Int.floor_le_floor (roundFinite_mono hquotient)
        _ = m / 2 ^ 53 := floor_roundFinite_div hm hbound (by norm_num) le_rfl
        _ = m / n := by rw [hzero]; exact Int.ediv_eq_zero_of_lt hm hbound

/-- A long that was converted is not changed by a factor of one. -/
theorem mul_ofInt_one {n : ℤ} (hlo : -2 ^ 63 ≤ n) (hhi : n ≤ 2 ^ 63) :
    mul (ofInt n) (ofInt 1) = ofInt n := by
  obtain ⟨hn, hbound⟩ := ofInt_of_range hlo hhi
  rw [hn, ofInt_eq_finite (by decide), mul, Int.cast_one, mul_one,
    ofRat_of_abs_le, roundFinite_roundFinite]
  rw [roundFinite_roundFinite]
  exact hbound.trans (by norm_num)

theorem exponent_mul_two_pow_le (x : ℚ) (k : ℕ) : exponent (x * 2 ^ k) ≤ exponent x + k := by
  by_cases hx : x = 0
  · rw [hx, zero_mul]
    omega
  · have hpos : (0 : ℚ) < 2 ^ k := by positivity
    have hlog : Int.log 2 |x * 2 ^ k| < Int.log 2 |x| + 1 + k := by
      have hlt := Int.lt_zpow_succ_log_self (b := 2) (by omega) |x|
      refine (Int.lt_zpow_iff_log_lt (by omega) (abs_pos.mpr (mul_ne_zero hx hpos.ne'))).mp ?_
      rw [abs_mul, abs_of_pos hpos]
      push_cast at hlt ⊢
      rw [zpow_add₀ two_ne_zero, zpow_natCast]
      exact mul_lt_mul_of_pos_right hlt hpos
    unfold exponent
    rw [if_neg hx, if_neg (mul_ne_zero hx hpos.ne')]
    omega

/-- Doubling a double any number of times does not round it. -/
theorem roundFinite_mul_two_pow (x : ℚ) (k : ℕ) :
    roundFinite (roundFinite x * 2 ^ k) = roundFinite x * 2 ^ k := by
  let y := roundFinite x
  have hy : y = roundEven (y / 2 ^ exponent y) * 2 ^ exponent y := (roundFinite_roundFinite x).symm
  have hscaled : y * 2 ^ k = roundEven (y / 2 ^ exponent y) * 2 ^ (exponent y + k) := by
    rw [zpow_add₀ two_ne_zero, zpow_natCast, ← mul_assoc, ← hy]
  exact roundFinite_of_exponent_le hscaled (exponent_mul_two_pow_le y k)

/-- The product with a power of two is exact while it stays in range. -/
theorem mul_ofInt_two_pow {x : ℚ} {k : ℕ} (hk : k ≤ 53) (h : |roundFinite x * 2 ^ k| ≤ 2 ^ (128 : ℤ)) :
    mul (finite (roundFinite x)) (ofInt (2 ^ k)) = finite (roundFinite x * 2 ^ k) := by
  have hpow : ofInt (2 ^ k) = finite (2 ^ k) := by
    have hle : (2 : ℤ) ^ k ≤ 2 ^ 53 := pow_le_pow_right₀ one_le_two hk
    rw [ofInt_eq_finite (by rwa [abs_of_pos (by positivity)])]
    push_cast
    rfl
  rw [hpow, mul, ofRat_of_abs_le, roundFinite_mul_two_pow]
  rwa [roundFinite_mul_two_pow]

/-- The quotient of an integer and a power of two is exact. -/
theorem div_ofInt_two_pow {n : ℤ} {k : ℕ} (hn : |n| < 2 ^ 53) (hk : k ≤ 53) :
    div (ofInt n) (ofInt (2 ^ k)) = finite (n / 2 ^ k) := by
  have hpos : (0 : ℚ) < 2 ^ k := by positivity
  have hle : (2 : ℤ) ^ k ≤ 2 ^ 53 := pow_le_pow_right₀ one_le_two hk
  have habs : |(n : ℚ)| < 2 ^ (53 : ℤ) := by exact_mod_cast hn
  have hquotient : (n : ℚ) / 2 ^ k = n * 2 ^ (-k : ℤ) := by
    rw [zpow_neg, zpow_natCast, div_eq_mul_inv]
  have hexponent : exponent ((n : ℚ) / 2 ^ k) ≤ -k := by
    refine exponent_le ?_ (by omega)
    rw [abs_div, abs_of_pos hpos, div_lt_iff₀ hpos, zpow_add₀ two_ne_zero, zpow_neg, zpow_natCast,
      mul_right_comm, inv_mul_cancel₀ hpos.ne', one_mul]
    exact habs
  have hround := roundFinite_of_exponent_le hquotient hexponent
  have hbound : |(n : ℚ) / 2 ^ k| ≤ 2 ^ (53 : ℤ) := by
    rw [abs_div, abs_of_pos hpos]
    exact (div_le_self (abs_nonneg _) (one_le_pow₀ one_le_two)).trans habs.le
  rw [ofInt_eq_finite hn.le, ofInt_eq_finite (by rwa [abs_of_pos (by positivity)])]
  push_cast
  rw [div, if_neg hpos.ne', ofRat_of_abs_le, hround]
  rw [hround]
  exact hbound.trans (by norm_num)

theorem toLong_finite {x : ℚ} (hlo : 0 ≤ x) (hhi : x < 2 ^ 63) : toLong (finite x) = ⌊x⌋ := by
  have hnonneg : 0 ≤ ⌊x⌋ := Int.floor_nonneg.mpr hlo
  have hlt : ⌊x⌋ < 2 ^ 63 := Int.floor_lt.mpr (by exact_mod_cast hhi)
  rw [toLong, truncate, if_pos hlo]
  omega

theorem mul_mono {a b : Binary64} {z : ℚ} (hab : le a b = true) (hz : 0 < z) :
    le (mul a (finite z)) (mul b (finite z)) = true := by
  have hup : ∀ x : ℚ, le (ofRat x) posInf = true := by
    intro x
    unfold ofRat
    split_ifs <;> rfl
  have hdown : ∀ x : ℚ, le negInf (ofRat x) = true := by
    intro x
    unfold ofRat
    split_ifs <;> rfl
  have hpos : infinity z = posInf := if_pos hz.le
  have hneg : infinity (-z) = negInf := if_neg (by linarith)
  have hne : z ≠ 0 := hz.ne'
  cases a with
  | nan => simp at hab
  | negInf => cases b <;> simp [mul, hne, hneg, hpos, hdown] at hab ⊢ <;> rfl
  | posInf => cases b <;> simp [mul, hne, hpos, le] at hab ⊢
  | finite x =>
    cases b with
    | finite y => exact ofRat_mono (mul_le_mul_of_nonneg_right (finite_le_finite.mp hab) hz.le)
    | posInf => simpa [mul, hne, hpos] using hup _
    | _ => simp [le] at hab

end finite

section sum

/-- The loop `sum += value` over integers. -/
def sum (values : List ℤ) : Binary64 :=
  values.foldl (fun sum value => add sum (ofInt value)) (finite 0)

/-- Sums are exact while the absolute values total at most `2 ^ 53`. -/
private theorem foldl_add_eq {n : ℤ} {values : List ℤ}
    (h : |n| + (values.map abs).sum ≤ 2 ^ 53) :
    values.foldl (fun sum value => add sum (ofInt value)) (finite n) =
      finite ((n + values.sum : ℤ) : ℚ) := by
  induction values generalizing n with
  | nil => simp
  | cons value values ih =>
    rw [List.map_cons, List.sum_cons] at h
    have hnonneg : 0 ≤ (values.map abs).sum := by
      refine List.sum_nonneg fun a ha => ?_
      obtain ⟨b, -, rfl⟩ := List.mem_map.mp ha
      exact abs_nonneg b
    have hvalue : |value| ≤ 2 ^ 53 := by
      have := abs_nonneg n
      omega
    have hsum : |n + value| ≤ |n| + |value| := abs_add_le n value
    have hadd : add (finite n) (ofInt value) = finite ((n + value : ℤ) : ℚ) := by
      rw [ofInt_eq_finite hvalue]
      simp only [add]
      exact_mod_cast ofInt_eq_finite (n := n + value) (by omega)
    rw [List.foldl_cons, hadd, ih (by omega), List.sum_cons, add_assoc]

theorem sum_eq_finite {values : List ℤ} (h : (values.map abs).sum ≤ 2 ^ 53) :
    sum values = finite ((values.sum : ℤ) : ℚ) := by
  simpa [sum] using foldl_add_eq (n := 0) (by simpa using h)

/-- Adding one more 64-bit integer keeps the order of two sums and their bound. -/
private theorem add_mono {x y : ℚ} {m n : ℤ} (hxy : x ≤ y) (hx : |x| ≤ 2 ^ (128 : ℤ))
    (hy : |y| ≤ 2 ^ (128 : ℤ)) (hmn : m ≤ n) (hlo : -2 ^ 63 ≤ m) (hhi : n ≤ 2 ^ 63) :
    ∃ x' y', add (finite x) (ofInt m) = finite x' ∧ add (finite y) (ofInt n) = finite y' ∧
      x' ≤ y' ∧ |x'| ≤ 2 ^ (128 : ℤ) ∧ |y'| ≤ 2 ^ (128 : ℤ) := by
  obtain ⟨hm, hmbound⟩ := ofInt_of_range hlo (hmn.trans hhi)
  obtain ⟨hn, hnbound⟩ := ofInt_of_range (hlo.trans hmn) hhi
  have hxbound := roundFinite_absorbs ((abs_add_le x (roundFinite m)).trans (add_le_add hx hmbound))
  have hybound := roundFinite_absorbs ((abs_add_le y (roundFinite n)).trans (add_le_add hy hnbound))
  refine ⟨_, _, by rw [hm, add, ofRat_of_abs_le hxbound], by rw [hn, add, ofRat_of_abs_le hybound],
    roundFinite_mono (add_le_add hxy (roundFinite_mono (by exact_mod_cast hmn))), hxbound, hybound⟩

/-- Sums of 64-bit integers are finite and keep the order of their terms. -/
theorem sum_mono {values values' : List ℤ} (h : List.Forall₂ (· ≤ ·) values values')
    (hlo : ∀ value ∈ values, -2 ^ 63 ≤ value) (hhi : ∀ value ∈ values', value ≤ 2 ^ 63) :
    ∃ x y, sum values = finite x ∧ sum values' = finite y ∧ x ≤ y := by
  suffices hstart : ∀ x y : ℚ, x ≤ y → |x| ≤ 2 ^ (128 : ℤ) → |y| ≤ 2 ^ (128 : ℤ) →
      ∃ x' y', values.foldl (fun sum value => add sum (ofInt value)) (finite x) = finite x' ∧
        values'.foldl (fun sum value => add sum (ofInt value)) (finite y) = finite y' ∧ x' ≤ y' from
    hstart 0 0 le_rfl (by norm_num) (by norm_num)
  induction h with
  | nil => exact fun x y hxy _ _ => ⟨x, y, rfl, rfl, hxy⟩
  | cons hmn _ ih =>
    intro x y hxy hx hy
    obtain ⟨hm, hlo⟩ := List.forall_mem_cons.mp hlo
    obtain ⟨hn, hhi⟩ := List.forall_mem_cons.mp hhi
    obtain ⟨x', y', hx', hy', hxy', hxbound, hybound⟩ := add_mono hxy hx hy hmn hm hn
    rw [List.foldl_cons, List.foldl_cons, hx', hy']
    exact ih hlo hhi x' y' hxy' hxbound hybound

end sum

end Binary64

end ieee
