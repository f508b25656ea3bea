import Mathlib.Data.List.Infix

namespace url

/-- The characters that stand for themselves. -/
def isUnreserved (c : Char) : Bool := c.isAlphanum || c ∈ ['*', '-', '.', '_']

def hexDigit (n : Nat) : Char := if n < 10 then Char.ofNat (48 + n) else Char.ofNat (55 + n)

def hexValue (c : Char) : Option Nat :=
  if '0' ≤ c ∧ c ≤ '9' then some (c.toNat - 48)
  else if 'A' ≤ c ∧ c ≤ 'F' then some (c.toNat - 55)
  else if 'a' ≤ c ∧ c ≤ 'f' then some (c.toNat - 87)
  else none

def encodeByte (byte : UInt8) : List Char :=
  let c := Char.ofNat byte.toNat
  if isUnreserved c then [c]
  else if c = ' ' then ['+']
  else ['%', hexDigit (byte.toNat / 16), hexDigit (byte.toNat % 16)]

/-- The bytes of a text. -/
def utf8Bytes (text : String) : List UInt8 := text.toList.flatMap String.utf8EncodeChar

/-- The name or the value of a field. -/
def encode (text : String) : List Char := (utf8Bytes text).flatMap encodeByte

/-- The bytes that are meant, none if a percent sign does not begin an escape. -/
def decodeBytes : List Char → Option (List UInt8)
  | [] => some []
  | '%' :: high :: low :: rest => do
    let high ← hexValue high
    let low ← hexValue low
    let bytes ← decodeBytes rest
    pure (UInt8.ofNat (16 * high + low) :: bytes)
  | c :: rest => do
    let bytes ← decodeBytes rest
    if c = '%' then none
    else if c = '+' then pure (32 :: bytes)
    else pure (String.utf8EncodeChar c ++ bytes)

def decode (chars : List Char) : Option String := do
  let bytes ← decodeBytes chars
  String.fromUTF8? bytes.toByteArray

def formatField (field : String × String) : List Char := encode field.1 ++ '=' :: encode field.2

/-- The fields of a form as the query of a url. -/
def format (fields : List (String × String)) : String :=
  String.ofList (['&'].intercalate (fields.map formatField))

/-- A name, and a value, which is empty if there is no equals sign. -/
def parseField (part : List Char) : Option (String × String) := do
  let name ← decode (part.takeWhile (· != '='))
  let value ← decode ((part.dropWhile (· != '=')).drop 1)
  pure (name, value)

/-- The fields in the query of a url. -/
def parse (query : String) : Option (List (String × String)) :=
  ((query.toList.splitOn '&').filter fun part => !part.isEmpty).mapM parseField

section bytes

theorem hexValue_hexDigit {n : Nat} (hn : n < 16) : hexValue (hexDigit n) = some n := by
  revert n
  decide

/-- An unreserved character is a byte of its own. -/
theorem unreserved_bytes {c : Char} (hc : isUnreserved c = true) :
    c.toNat < 128 ∧ c ≠ '%' ∧ c ≠ '+' ∧ c ≠ '&' ∧ c ≠ '=' := by
  refine ⟨?_, ?_, ?_, ?_, ?_⟩
  · have hranges : ((decide ('A'.val ≤ c.val ∧ c.val ≤ 'Z'.val) ||
        decide ('a'.val ≤ c.val) && decide (c.val ≤ 'z'.val)) ||
        decide ('0'.val ≤ c.val) && decide (c.val ≤ '9'.val) || decide (c ∈ ['*', '-', '.', '_'])) = true := hc
    simp only [Bool.or_eq_true, Bool.and_eq_true, decide_eq_true_eq, List.mem_cons, List.not_mem_nil, or_false,
      UInt32.le_iff_toNat_le] at hranges
    have hvalue : c.val.toNat = c.toNat := rfl
    rw [hvalue] at hranges
    rcases hranges with ((⟨-, hle⟩ | ⟨-, hle⟩) | ⟨-, hle⟩) | rfl | rfl | rfl | rfl
    · exact Nat.lt_of_le_of_lt hle (by decide)
    · exact Nat.lt_of_le_of_lt hle (by decide)
    · exact Nat.lt_of_le_of_lt hle (by decide)
    all_goals decide
  all_goals
    rintro rfl
    exact absurd hc (by decide)

theorem utf8EncodeChar_of_lt {c : Char} (hc : c.toNat < 128) :
    String.utf8EncodeChar c = [UInt8.ofNat c.toNat] :=
  if_pos (Nat.le_of_lt_succ hc)

theorem decodeBytes_cons {c : Char} (hc : c ≠ '%') (rest : List Char) :
    decodeBytes (c :: rest) = (decodeBytes rest).map fun bytes =>
      if c = '+' then 32 :: bytes else String.utf8EncodeChar c ++ bytes := by
  rw [decodeBytes]
  · cases decodeBytes rest with
    | none => rfl
    | some bytes =>
      simp only [Option.bind_eq_bind, Option.bind_some, if_neg hc, Option.map_some]
      split <;> rfl
  · rintro high low rest rfl
    exact absurd rfl hc

/-- The character with the number of a byte. -/
theorem toNat_byteChar (byte : UInt8) : (Char.ofNat byte.toNat).toNat = byte.toNat := by
  have hvalid : byte.toNat.isValidChar := Or.inl (Nat.lt_trans byte.toNat_lt (by decide))
  rw [Char.ofNat, dif_pos hvalid]
  rfl

/-- What an encoded byte is read back as. -/
theorem decodeBytes_encodeByte (byte : UInt8) (rest : List Char) :
    decodeBytes (encodeByte byte ++ rest) = (decodeBytes rest).map fun bytes => byte :: bytes := by
  rw [encodeByte]
  by_cases hunreserved : isUnreserved (Char.ofNat byte.toNat) = true
  · obtain ⟨hascii, hpercent, hplus, -⟩ := unreserved_bytes hunreserved
    rw [if_pos hunreserved, List.singleton_append, decodeBytes_cons hpercent, utf8EncodeChar_of_lt hascii,
      toNat_byteChar, UInt8.ofNat_toNat]
    simp only [if_neg hplus, List.singleton_append]
  · rw [if_neg hunreserved]
    by_cases hspace : Char.ofNat byte.toNat = ' '
    · have hbyte : byte = 32 := UInt8.toNat_inj.mp ((toNat_byteChar byte).symm.trans (congrArg Char.toNat hspace))
      rw [if_pos hspace, List.singleton_append, decodeBytes_cons (by decide), hbyte]
      rfl
    · have hhigh := hexValue_hexDigit (show byte.toNat / 16 < 16 by have := byte.toNat_lt; omega)
      have hlow := hexValue_hexDigit (show byte.toNat % 16 < 16 by omega)
      have hsum : 16 * (byte.toNat / 16) + byte.toNat % 16 = byte.toNat := Nat.div_add_mod ..
      rw [if_neg hspace]
      simp only [List.cons_append, List.nil_append, decodeBytes, hhigh, hlow, Option.bind_eq_bind,
        Option.bind_some, hsum, UInt8.ofNat_toNat]
      cases decodeBytes rest <;> rfl

theorem decodeBytes_encode (bytes : List UInt8) : decodeBytes (bytes.flatMap encodeByte) = some bytes := by
  induction bytes with
  | nil => rfl
  | cons byte bytes ih => rw [List.flatMap_cons, decodeBytes_encodeByte, ih, Option.map_some]

/-- The text that an encoded name or value stands for. -/
theorem decode_encode (text : String) : decode (encode text) = some text := by
  have hbytes : (utf8Bytes text).toByteArray = text.toByteArray := String.utf8Encode_toList
  rw [decode, encode, decodeBytes_encode]
  simp only [Option.bind_eq_bind, Option.bind_some, hbytes]
  rw [String.fromUTF8?, dif_pos text.isValidUTF8]
  rfl

theorem hexDigit_separators {n : Nat} (hn : n < 16) : hexDigit n ≠ '&' ∧ hexDigit n ≠ '=' := by
  revert n
  decide

/-- No encoded byte is taken for the end of a name or a value. -/
theorem encodeByte_separators (byte : UInt8) : ∀ c ∈ encodeByte byte, c ≠ '&' ∧ c ≠ '=' := by
  intro c hc
  rw [encodeByte] at hc
  split at hc
  · rename_i hunreserved
    obtain rfl := List.mem_singleton.mp hc
    exact (unreserved_bytes hunreserved).2.2.2
  · split at hc
    · obtain rfl := List.mem_singleton.mp hc
      decide
    · have hhigh := hexDigit_separators (show byte.toNat / 16 < 16 by have := byte.toNat_lt; omega)
      have hlow := hexDigit_separators (show byte.toNat % 16 < 16 by omega)
      simp only [List.mem_cons, List.not_mem_nil, or_false] at hc
      rcases hc with rfl | rfl | rfl
      · decide
      · exact hhigh
      · exact hlow

theorem encode_separators (text : String) : ∀ c ∈ encode text, c ≠ '&' ∧ c ≠ '=' := by
  intro c hc
  obtain ⟨byte, -, hbyte⟩ := List.mem_flatMap.mp hc
  exact encodeByte_separators byte c hbyte

/-- Unreserved text stands for itself. -/
theorem encode_of_unreserved {text : String} (h : ∀ c ∈ text.toList, isUnreserved c = true) :
    encode text = text.toList := by
  rw [encode, utf8Bytes, List.flatMap_assoc]
  refine (List.flatMap_congr fun c hc => ?_).trans (List.flatMap_singleton' _)
  have hascii := (unreserved_bytes (h c hc)).1
  have hnat : (UInt8.ofNat c.toNat).toNat = c.toNat := by
    rw [UInt8.toNat_ofNat']
    omega
  rw [utf8EncodeChar_of_lt hascii, List.flatMap_singleton, encodeByte, hnat, Char.ofNat_toNat, if_pos (h c hc)]

end bytes

section fields

/-- The field that its text stands for. -/
theorem parseField_formatField (field : String × String) : parseField (formatField field) = some field := by
  have hname : ∀ c ∈ encode field.1, (c != '=') = true := fun c hc =>
    bne_iff_ne.mpr (encode_separators field.1 c hc).2
  have htake : (formatField field).takeWhile (· != '=') = encode field.1 := by
    rw [formatField, List.takeWhile_append_of_pos hname, List.takeWhile_cons_of_neg (by simp), List.append_nil]
  have hdrop : (formatField field).dropWhile (· != '=') = '=' :: encode field.2 := by
    rw [formatField, List.dropWhile_append_of_pos hname, List.dropWhile_cons_of_neg (by simp)]
  rw [parseField, htake, hdrop, List.drop_one, List.tail_cons, decode_encode, decode_encode]
  rfl

theorem formatField_separators (field : String × String) : '&' ∉ formatField field := by
  intro hmem
  rcases List.mem_append.mp hmem with hname | hvalue
  · exact (encode_separators field.1 _ hname).1 rfl
  · rcases List.mem_cons.mp hvalue with hequals | hvalue
    · exact absurd hequals (by decide)
    · exact (encode_separators field.2 _ hvalue).1 rfl

theorem formatField_ne_nil (field : String × String) : formatField field ≠ [] :=
  List.append_ne_nil_of_right_ne_nil _ (List.cons_ne_nil _ _)

/-- A form is read back as it was written. -/
theorem parse_format (fields : List (String × String)) : parse (format fields) = some fields := by
  have hparts : (((['&'].intercalate (fields.map formatField)).splitOn '&').filter fun part =>
      !part.isEmpty) = fields.map formatField := by
    cases fields with
    | nil => rfl
    | cons field fields =>
      rw [List.splitOn_intercalate]
      · refine List.filter_eq_self.mpr fun part hpart => ?_
        obtain ⟨field', -, rfl⟩ := List.mem_map.mp hpart
        simp [formatField_ne_nil]
      · intro part hpart
        obtain ⟨field', -, rfl⟩ := List.mem_map.mp hpart
        exact formatField_separators field'
      · exact List.cons_ne_nil _ _
  have hfields : parseField ∘ formatField = some := funext parseField_formatField
  rw [parse, format, String.toList_ofList, hparts, List.mapM_map, hfields]
  exact (@List.mapM_pure Option _ _ _ _ fields id).trans (congrArg some fields.map_id)

theorem intercalate_concat {α : Type*} (separator : List α) {parts : List (List α)} (hne : parts ≠ [])
    (part : List α) :
    separator.intercalate (parts ++ [part]) = separator.intercalate parts ++ separator ++ part := by
  induction parts with
  | nil => exact absurd rfl hne
  | cons first parts ih =>
    cases parts with
    | nil => simp [List.intercalate_cons_cons]
    | cons second parts =>
      have hrest := ih (List.cons_ne_nil _ _)
      rw [List.cons_append] at hrest
      rw [List.cons_append, List.cons_append, List.intercalate_cons_cons, List.intercalate_cons_cons, hrest]
      simp only [List.append_assoc]

/-- The text of a form with one more field. -/
theorem format_concat {fields : List (String × String)} (hne : fields ≠ []) (field : String × String) :
    format (fields ++ [field]) = format fields ++ "&" ++ format [field] := by
  have hparts : fields.map formatField ≠ [] := by simpa using hne
  rw [format, format, format, List.map_append, List.map_singleton, intercalate_concat _ hparts,
    String.ofList_append, String.ofList_append, List.intercalate_singleton]

/-- A form of one field whose name and value stand for themselves. -/
theorem format_singleton {name value : String} (hname : ∀ c ∈ name.toList, isUnreserved c = true)
    (hvalue : ∀ c ∈ value.toList, isUnreserved c = true) :
    format [(name, value)] = name ++ "=" ++ value := by
  rw [format, List.map_singleton, List.intercalate_singleton, formatField, encode_of_unreserved hname,
    encode_of_unreserved hvalue, ← List.singleton_append, String.ofList_append, String.ofList_append,
    String.ofList_toList, String.ofList_toList, String.append_assoc]

end fields

/-- What a writer and a reader of queries keep to: fields are separated by
ampersands, unreserved text stands for itself, and what was written is read. -/
structure RoundTrip (format : List (String × String) → String)
    (parse : String → Option (List (String × String))) : Prop where
  concat : ∀ fields field, fields ≠ [] → format (fields ++ [field]) = format fields ++ "&" ++ format [field]
  singleton : ∀ name value : String, (∀ c ∈ name.toList, isUnreserved c = true) →
    (∀ c ∈ value.toList, isUnreserved c = true) → format [(name, value)] = name ++ "=" ++ value
  parse_format : ∀ fields, parse (format fields) = some fields

theorem roundTrip : RoundTrip format parse where
  concat _ field hne := format_concat hne field
  singleton _ _ hname hvalue := format_singleton hname hvalue
  parse_format := parse_format

end url
