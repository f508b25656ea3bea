import Mathlib.Algebra.BigOperators.Group.List.Basic
import Mathlib.Algebra.Ring.Int.Defs

namespace machine

/-- The value an integer takes in a signed 32-bit word. -/
def wrap32 (x : Int) : Int := x.bmod (2 ^ 32)

/-- Values that fit keep their value. -/
theorem wrap32_eq_self {x : Int} (hlo : -2 ^ 31 ≤ x) (hhi : x < 2 ^ 31) : wrap32 x = x := by
  apply Int.bmod_eq_of_le <;> omega

theorem wrap32_range (x : Int) : -2 ^ 31 ≤ wrap32 x ∧ wrap32 x < 2 ^ 31 := by
  have hlo := Int.le_bmod (x := x) (m := 2 ^ 32) (by decide)
  have hhi := Int.bmod_lt (x := x) (m := 2 ^ 32) (by decide)
  unfold wrap32
  omega

@[simp] theorem wrap32_zero : wrap32 0 = 0 := rfl

/-- The loop `sum += x` over 32-bit words. -/
def sum32 (l : List Int) : Int := l.foldl (fun sum x => wrap32 (sum + x)) 0

private theorem foldl_bmod (m : Nat) (l : List Int) (sum : Int) :
    l.foldl (fun sum x => (sum + x).bmod m) (sum.bmod m) = (sum + l.sum).bmod m := by
  induction l generalizing sum with
  | nil => simp
  | cons x l ih =>
    rw [List.foldl_cons, Int.bmod_add_bmod, ih, List.sum_cons, add_assoc]

/-- Wrapping at every addition or once at the end gives the same word. -/
theorem sum32_eq (l : List Int) : sum32 l = wrap32 l.sum := by
  have h := foldl_bmod (2 ^ 32) l 0
  rw [Int.zero_bmod, zero_add] at h
  exact h

/-- The value an integer takes in a signed 64-bit word. -/
def wrap64 (x : Int) : Int := x.bmod (2 ^ 64)

theorem wrap64_eq_self {x : Int} (hlo : -2 ^ 63 ≤ x) (hhi : x < 2 ^ 63) : wrap64 x = x := by
  apply Int.bmod_eq_of_le <;> omega

theorem wrap64_range (x : Int) : -2 ^ 63 ≤ wrap64 x ∧ wrap64 x < 2 ^ 63 := by
  unfold wrap64
  constructor
  · exact Int.le_bmod (by omega)
  · exact Int.bmod_lt (by omega)

/-- A value past the largest word wraps around to a negative one. -/
theorem wrap64_eq_sub {x : Int} (hlo : 2 ^ 63 ≤ x) (hhi : x < 2 ^ 64 + 2 ^ 63) :
    wrap64 x = x - 2 ^ 64 := by
  rw [wrap64, Int.bmod_eq_emod]
  split <;> omega

/-- The loop `sum += x` over 64-bit words. -/
def sum64 (l : List Int) : Int := l.foldl (fun sum x => wrap64 (sum + x)) 0

theorem sum64_eq (l : List Int) : sum64 l = wrap64 l.sum := by
  have h := foldl_bmod (2 ^ 64) l 0
  rw [Int.zero_bmod, zero_add] at h
  exact h

end machine
