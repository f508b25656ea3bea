import Mathlib.Data.List.Basic
import Mathlib.Order.Basic
import DrElephant.Java.Exception

namespace java.lang

/-- The character tables of the running JVM. -/
structure CharacterTables where
  toUpperCase : Char → Char
  toLowerCase : Char → Char

/-- Tables that agree with the JVM's on the ASCII letters. -/
def CharacterTables.ascii : CharacterTables := ⟨Char.toUpper, Char.toLower⟩

/-- `String.compareToIgnoreCase`: the first pair of characters that differ both
in upper case and after folding that back to lower case decides, and failing
that the lengths. -/
def compareToIgnoreCase (tables : CharacterTables) : List Char → List Char → Int
  | [], s2 => -(s2.length : Int)
  | s1, [] => s1.length
  | c1 :: s1, c2 :: s2 =>
    if c1 = c2 then compareToIgnoreCase tables s1 s2
    else
      let c1 := tables.toUpperCase c1
      let c2 := tables.toUpperCase c2
      if c1 = c2 then compareToIgnoreCase tables s1 s2
      else
        let c1 := tables.toLowerCase c1
        let c2 := tables.toLowerCase c2
        if c1 = c2 then compareToIgnoreCase tables s1 s2 else (c1.toNat : Int) - c2.toNat

/-- The case folding behind the comparison. -/
def CharacterTables.fold (tables : CharacterTables) (c : Char) : Char :=
  tables.toLowerCase (tables.toUpperCase c)

private theorem compare_toNat_sub (c1 c2 : Char) (hne : c1 ≠ c2) :
    compare ((c1.toNat : Int) - c2.toNat) 0 = compare c1 c2 := by
  have hnat : c1.toNat ≠ c2.toNat := fun h => hne (Char.toNat_inj.mp h)
  have hlt : c1 < c2 ↔ c1.toNat < c2.toNat := Iff.rfl
  simp only [compare, compareOfLessAndEq, hne, if_false, hlt]
  rcases Nat.lt_or_gt_of_ne hnat with h | h
  · rw [if_pos (by omega), if_pos h]
  · rw [if_neg (by omega), if_neg (by omega), if_neg (by omega)]

/-- The loop orders two strings as their case foldings are ordered. -/
theorem compare_compareToIgnoreCase (tables : CharacterTables) (s1 s2 : List Char) :
    compare (compareToIgnoreCase tables s1 s2) 0 =
      compare (s1.map tables.fold) (s2.map tables.fold) := by
  induction s1 generalizing s2 with
  | nil =>
    cases s2 with
    | nil => rfl
    | cons c2 s2 =>
      have hneg : -((c2 :: s2).length : Int) < 0 := by
        simp only [List.length_cons]
        omega
      simp only [compareToIgnoreCase, List.map_nil, List.map_cons, List.compare_nil_cons]
      simp only [compare, compareOfLessAndEq, if_pos hneg]
  | cons c1 s1 ih =>
    cases s2 with
    | nil =>
      have hpos : 0 < ((c1 :: s1).length : Int) := by
        simp only [List.length_cons]
        omega
      simp only [compareToIgnoreCase, List.map_nil, List.map_cons, List.compare_cons_nil]
      simp only [compare, compareOfLessAndEq, if_neg (by omega : ¬ ((c1 :: s1).length : Int) < 0),
        if_neg (by omega : ¬ ((c1 :: s1).length : Int) = 0)]
    | cons c2 s2 =>
      simp only [compareToIgnoreCase, List.map_cons, List.compare_cons_cons]
      by_cases hsame : c1 = c2
      · subst hsame
        simp [ih]
      · by_cases hupper : tables.toUpperCase c1 = tables.toUpperCase c2
        · simp [hsame, hupper, CharacterTables.fold, ih]
        · by_cases hlower : tables.fold c1 = tables.fold c2
          · have hlower' := hlower
            simp only [CharacterTables.fold] at hlower'
            simp [hsame, hupper, hlower', hlower, ih]
          · have hlower' := hlower
            simp only [CharacterTables.fold] at hlower'
            have hne : compare (tables.fold c1) (tables.fold c2) ≠ .eq := fun h =>
              hlower (Std.LawfulEqOrd.eq_of_compare h)
            simp only [hsame, hupper, hlower', if_false]
            rw [compare_toNat_sub _ _ hlower']
            cases h : compare (tables.fold c1) (tables.fold c2) with
            | eq => exact absurd h hne
            | lt => simpa [CharacterTables.fold] using h
            | gt => simpa [CharacterTables.fold] using h

/-- What stands before the first separator is told apart from what stands behind it. -/
theorem append_separator_inj {α : Type} {separator : α} {before before' behind behind' : List α}
    (hbefore : separator ∉ before) (hbefore' : separator ∉ before') :
    before ++ separator :: behind = before' ++ separator :: behind' ↔ before = before' ∧ behind = behind' := by
  constructor
  · intro h
    classical
    have hplain : ∀ {before : List α}, separator ∉ before → ∀ behind,
        (before ++ separator :: behind).takeWhile (fun a => decide (a ≠ separator)) = before := by
      intro before hbefore behind
      have hne : ∀ a ∈ before, decide (a ≠ separator) = true := fun a ha =>
        decide_eq_true (ne_of_mem_of_not_mem ha hbefore)
      rw [List.takeWhile_append_of_pos hne]
      simp
    have heq : before = before' := by rw [← hplain hbefore behind, h, hplain hbefore' behind']
    subst heq
    exact ⟨rfl, (List.cons.inj (List.append_cancel_left h)).2⟩
  · rintro ⟨rfl, rfl⟩
    rfl

/-- `String.split` at a character: trailing empty parts are left out, unless
nothing was split at all. -/
def split (separator : Char) (text : String) : List String :=
  let parts := (text.toList.splitOn separator).map String.ofList
  if parts.length = 1 then parts else (parts.reverse.dropWhile String.isEmpty).reverse

/-- `Boolean.valueOf`: anything but "true" in any case is false. -/
def booleanValueOf (text : Option String) : Bool :=
  text.any fun text => text.toList.map Char.toLower == "true".toList

/-- `Integer.parseInt`, with none for the exception. The digits of a JVM are
those of all scripts. -/
def parseInt (digit : Char → Option Nat) (text : String) : Option Int :=
  let (sign, digits) : Int × List Char :=
    match text.toList with
    | '-' :: digits => (-1, digits)
    | '+' :: digits => (1, digits)
    | digits => (1, digits)
  if digits.isEmpty then none
  else
    ((digits.mapM digit).map fun digits => sign * digits.foldl (fun n d => 10 * n + d) 0).filter
      fun value => -2147483648 ≤ value ∧ value ≤ 2147483647

/-- A table of digits that has the ASCII digits. -/
def DecimalDigits (digit : Char → Option Nat) : Prop :=
  ∀ c : Char, c.isDigit = true → digit c = some (c.toNat - '0'.toNat)

private theorem mapM_digit {digit : Char → Option Nat} (hdigit : DecimalDigits digit) {text : List Char}
    (htext : ∀ c ∈ text, c.isDigit = true) :
    text.mapM digit = some (text.map fun c => c.toNat - '0'.toNat) := by
  induction text with
  | nil => rfl
  | cons c text ih =>
    obtain ⟨hc, hrest⟩ := List.forall_mem_cons.mp htext
    simp [List.mapM_cons, hdigit c hc, ih hrest]

private theorem foldl_digits (text : List Char) (n : Nat) :
    (text.map fun c => c.toNat - '0'.toNat).foldl (fun (n : Int) (d : Nat) => 10 * n + d) n =
      (Nat.ofDigitChars 10 text n : Nat) := by
  rw [Nat.ofDigitChars_eq_foldl]
  induction text generalizing n with
  | nil => rfl
  | cons c text ih =>
    rw [List.map_cons, List.foldl_cons, List.foldl_cons, ← ih]
    push_cast
    rfl

/-- A number that is an int is read back from its text. -/
theorem parseInt_toString {digit : Char → Option Nat} (hdigit : DecimalDigits digit) {n : Nat}
    (hn : n ≤ 2147483647) : parseInt digit (toString n) = some (n : Int) := by
  have hdigits : ∀ c ∈ (toString n).toList, c.isDigit = true := by
    intro c hc
    rw [Nat.toString_eq_repr, Nat.toList_repr] at hc
    exact Nat.isDigit_of_mem_toDigits (by decide) (by decide) hc
  have hvalue : Nat.ofDigitChars 10 (toString n).toList 0 = n := by
    rw [Nat.toString_eq_repr, Nat.toList_repr, Nat.ofDigitChars_ten_toDigits]
  have hne : (toString n).toList ≠ [] := by
    rw [Nat.toString_eq_repr, Nat.toList_repr]
    exact Nat.toDigits_ne_nil
  have hplain : ∀ sign : Char, sign.isDigit = false → ∀ rest, (toString n).toList ≠ sign :: rest := by
    intro sign hsign rest heq
    rw [hdigits sign (heq ▸ List.mem_cons_self)] at hsign
    cases hsign
  have hlist : ∀ l : List Nat, (do let a ← l; pure (a : Int) : List Int) =
      l.map (Nat.cast : Nat → Int) := by
    intro l
    induction l <;> simp_all
  unfold parseInt
  generalize (toString n).toList = text at hdigits hvalue hne hplain
  split
  rename_i sign digits hsplit
  split at hsplit
  · exact absurd rfl (hplain '-' (by decide) _)
  · exact absurd rfl (hplain '+' (by decide) _)
  · obtain ⟨rfl, rfl⟩ := Prod.mk.inj hsplit
    have hempty : text.isEmpty = false := by simpa using hne
    rw [hempty, mapM_digit hdigit hdigits]
    have hfold := foldl_digits text 0
    rw [hvalue, Nat.cast_zero] at hfold
    rw [if_neg Bool.false_ne_true, Option.map_some, hlist, List.foldl_map, hfold, one_mul, Option.filter_some,
      if_pos]
    rw [decide_eq_true_iff]
    omega

/-- `Long.parseLong`, with none for the exception. -/
def parseLong (digit : Char → Option Nat) (text : String) : Option Int :=
  let (sign, digits) : Int × List Char :=
    match text.toList with
    | '-' :: digits => (-1, digits)
    | '+' :: digits => (1, digits)
    | digits => (1, digits)
  if digits.isEmpty then none
  else
    ((digits.mapM digit).map fun digits => sign * digits.foldl (fun n d => 10 * n + d) 0).filter
      fun value => -9223372036854775808 ≤ value ∧ value ≤ 9223372036854775807

/-- `String.indexOf` of a character, -1 when there is none. -/
def indexOf (text : String) (c : Char) : Int :=
  match text.toList.findIdx? (· == c) with
  | some i => i
  | none => -1

/-- `String.substring` -/
def substring (text : String) (beginIndex endIndex : Int) : Except JavaException String :=
  if beginIndex < 0 ∨ endIndex > text.length ∨ beginIndex > endIndex then .error .indexOutOfBounds
  else .ok (String.ofList ((text.toList.take endIndex.toNat).drop beginIndex.toNat))

/-- The characters of a text with a plain target replaced from the left. The
characters of a match are skipped. -/
def replaceChars (target replacement : List Char) : Nat → List Char → List Char
  | _, [] => []
  | skip + 1, _ :: text => replaceChars target replacement skip text
  | 0, c :: text =>
    if target.isPrefixOf (c :: text) then
      replacement ++ replaceChars target replacement (target.length - 1) text
    else c :: replaceChars target replacement 0 text

/-- `String.replaceAll` of an expression that is plain text. -/
def replaceAll (text target replacement : String) : String :=
  String.ofList (replaceChars target.toList replacement.toList 0 text.toList)

/-- `String.trim` cuts the characters up to the space off both ends. -/
def trim (text : String) : String :=
  let isSpace : Char → Bool := fun c => decide (c.toNat ≤ 32)
  String.ofList (((text.toList.dropWhile isSpace).reverse.dropWhile isSpace).reverse)

/-- Nothing is cut of a text that begins and ends above the space but what follows it. -/
theorem trim_append_space {text : String} (hne : text.toList ≠ []) (hhead : ∀ c ∈ text.toList.head?, 32 < c.toNat)
    (hlast : ∀ c ∈ text.toList.getLast?, 32 < c.toNat) : trim (text ++ " ") = text := by
  have hdrop : ∀ {cs : List Char}, cs ≠ [] → (∀ c ∈ cs.head?, 32 < c.toNat) → ∀ rest,
      (cs ++ rest).dropWhile (fun c => decide (c.toNat ≤ 32)) = cs ++ rest := by
    intro cs hcs hhigh rest
    obtain ⟨c, cs, rfl⟩ := List.exists_cons_of_ne_nil hcs
    have hc := hhigh c rfl
    rw [List.cons_append, List.dropWhile_cons, if_neg (by simpa using hc)]
  have hfront := hdrop hne hhead [' ']
  have hback := hdrop (List.reverse_ne_nil_iff.mpr hne) (by rwa [List.head?_reverse]) []
  rw [List.append_nil] at hback
  have hspace : (text ++ " ").toList = text.toList ++ [' '] := String.toList_append
  rw [trim, hspace, hfront, List.reverse_append, List.reverse_singleton, List.singleton_append,
    List.dropWhile_cons, if_pos (by decide), hback, List.reverse_reverse, String.ofList_toList]

end java.lang
