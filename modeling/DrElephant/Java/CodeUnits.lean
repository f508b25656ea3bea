import Mathlib.Data.List.Basic

namespace java.lang

/-- The UTF-16 code units of a character. -/
def codeUnits (c : Char) : List Nat :=
  if c.toNat < 0x10000 then [c.toNat]
  else [0xD800 + (c.toNat - 0x10000) / 0x400, 0xDC00 + (c.toNat - 0x10000) % 0x400]

/-- `String.length` of characters. -/
def unitCount (text : List Char) : Nat := (text.flatMap codeUnits).length

/-- `String.length`, which counts code units. -/
def utf16Length (text : String) : Nat := unitCount text.toList

/-- The characters that begin within the first code units. Of a pair that is cut
in two the first half is written as a question mark, as `String.getBytes` does. -/
def takeUnits : Nat → List Char → List Char
  | _, [] => []
  | units, c :: text =>
    if (codeUnits c).length ≤ units then c :: takeUnits (units - (codeUnits c).length) text
    else if units = 0 then [] else ['?']

/-- `String.substring` from the beginning. -/
def substringTo (text : String) (endIndex : Nat) : String := String.ofList (takeUnits endIndex text.toList)

theorem length_codeUnits (c : Char) : (codeUnits c).length = if c.toNat < 0x10000 then 1 else 2 := by
  unfold codeUnits
  split <;> rfl

theorem length_codeUnits_range (c : Char) : 1 ≤ (codeUnits c).length ∧ (codeUnits c).length ≤ 2 := by
  rw [length_codeUnits]
  split <;> omega

section unitCount

@[simp] theorem unitCount_nil : unitCount [] = 0 := rfl

@[simp] theorem unitCount_cons (c : Char) (text : List Char) :
    unitCount (c :: text) = (codeUnits c).length + unitCount text := by
  rw [unitCount, List.flatMap_cons, List.length_append, unitCount]

theorem unitCount_append (text text' : List Char) : unitCount (text ++ text') = unitCount text + unitCount text' := by
  rw [unitCount, List.flatMap_append, List.length_append, unitCount, unitCount]

/-- A character has one code unit or two. -/
theorem unitCount_range (text : List Char) :
    text.length ≤ unitCount text ∧ unitCount text ≤ 2 * text.length := by
  induction text with
  | nil => exact ⟨Nat.le_refl _, Nat.le_refl _⟩
  | cons c text ih =>
    have hone := length_codeUnits_range c
    rw [unitCount_cons, List.length_cons]
    omega

/-- Characters of the basic plane have one each. -/
theorem unitCount_of_basic {text : List Char} (h : ∀ c ∈ text, c.toNat < 0x10000) :
    unitCount text = text.length := by
  induction text with
  | nil => rfl
  | cons c text ih =>
    obtain ⟨hc, hrest⟩ := List.forall_mem_cons.mp h
    rw [unitCount_cons, ih hrest, length_codeUnits, if_pos hc, List.length_cons, Nat.add_comm]

end unitCount

section takeUnits

variable {units : Nat} {text rest : List Char}

theorem takeUnits_of_le (h : unitCount text ≤ units) : takeUnits units text = text := by
  induction text generalizing units with
  | nil => rfl
  | cons c text ih =>
    rw [unitCount_cons] at h
    rw [takeUnits, if_pos (by omega), ih (by omega)]

theorem unitCount_takeUnits (h : units ≤ unitCount text) : unitCount (takeUnits units text) = units := by
  induction text generalizing units with
  | nil =>
    rw [unitCount_nil] at h
    rw [takeUnits, unitCount_nil]
    omega
  | cons c text ih =>
    have hone := length_codeUnits_range c
    rw [unitCount_cons] at h
    rw [takeUnits]
    split
    · rw [unitCount_cons, ih (by omega)]
      omega
    · split
      · rename_i hzero
        exact hzero.symm
      · -- One unit is left for a character of two.
        have hhalf : unitCount ['?'] = 1 := rfl
        omega

theorem takeUnits_append (h : unitCount text = units) : takeUnits units (text ++ rest) = text := by
  induction text generalizing units with
  | nil =>
    obtain rfl : 0 = units := h
    cases rest with
    | nil => rfl
    | cons c rest =>
      have hone := length_codeUnits_range c
      rw [List.nil_append, takeUnits, if_neg (by omega), if_pos rfl]
  | cons c text ih =>
    rw [unitCount_cons] at h
    rw [List.cons_append, takeUnits, if_pos (by omega), ih (by omega)]

end takeUnits

section strings

variable {text : String} {endIndex : Nat}

theorem length_le_utf16Length (text : String) : text.length ≤ utf16Length text := by
  rw [← String.length_toList, utf16Length]
  exact (unitCount_range _).1

theorem utf16Length_le (text : String) : utf16Length text ≤ 2 * text.length := by
  rw [← String.length_toList, utf16Length]
  exact (unitCount_range _).2

theorem utf16Length_append (text text' : String) :
    utf16Length (text ++ text') = utf16Length text + utf16Length text' := by
  rw [utf16Length, String.toList_append, unitCount_append, utf16Length, utf16Length]

theorem substringTo_of_le (h : utf16Length text ≤ endIndex) : substringTo text endIndex = text := by
  rw [substringTo, takeUnits_of_le h, String.ofList_toList]

theorem utf16Length_substringTo (h : endIndex ≤ utf16Length text) :
    utf16Length (substringTo text endIndex) = endIndex := by
  rw [substringTo, utf16Length, String.toList_ofList, unitCount_takeUnits h]

/-- The test before the cut saves work and nothing else. -/
theorem ite_substringTo (text : String) (endIndex : Nat) :
    (if utf16Length text > endIndex then substringTo text endIndex else text) = substringTo text endIndex := by
  split
  · rfl
  · rename_i hfits
    exact (substringTo_of_le (Nat.le_of_not_lt hfits)).symm

theorem substringTo_append {rest : String} (h : utf16Length text = endIndex) :
    substringTo (text ++ rest) endIndex = text := by
  rw [substringTo, String.toList_append, takeUnits_append h, String.ofList_toList]

end strings

end java.lang
