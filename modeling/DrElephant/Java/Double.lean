import DrElephant.Java.Text
import DrElephant.Library.Binary64

open ieee

namespace java.lang.Double

def decimalDigit (c : Char) : Option Nat :=
  if '0' ≤ c ∧ c ≤ '9' then some (c.toNat - '0'.toNat) else none

def hexDigit (c : Char) : Option Nat :=
  if 'a' ≤ c ∧ c ≤ 'f' then some (10 + (c.toNat - 'a'.toNat))
  else if 'A' ≤ c ∧ c ≤ 'F' then some (10 + (c.toNat - 'A'.toNat))
  else decimalDigit c

/-- The number that digits write, with none for a text that is no number. -/
def natural (digit : Char → Option Nat) (base : Nat) (text : List Char) : Option Nat :=
  if text.isEmpty then none
  else (text.mapM digit).map fun digits => digits.foldl (fun n d => base * n + d) 0

/-- The number that digits with an optional point write without the point, and
how many digits stand behind it. -/
def pointed (digit : Char → Option Nat) (base : Nat) (text : List Char) : Option (Nat × Nat) :=
  let whole := text.takeWhile (· != '.')
  let fraction := (text.dropWhile (· != '.')).drop 1
  (natural digit base (whole ++ fraction)).map fun n => (n, fraction.length)

def signed (text : List Char) : Option Int :=
  match text with
  | '-' :: digits => (natural decimalDigit 10 digits).map fun n => -(n : Int)
  | '+' :: digits => (natural decimalDigit 10 digits).map fun n => (n : Int)
  | digits => (natural decimalDigit 10 digits).map fun n => (n : Int)

/-- A literal may end in a letter for its type. -/
def dropTypeSuffix (text : List Char) : List Char :=
  if (text.getLast?.any fun c => c ∈ ['f', 'F', 'd', 'D']) then text.dropLast else text

/-- A decimal literal without its sign. -/
def decimal (text : List Char) : Option Binary64 := do
  let isMark : Char → Bool := fun c => c == 'e' || c == 'E'
  let text := dropTypeSuffix text
  let (n, places) ← pointed decimalDigit 10 (text.takeWhile (!isMark ·))
  let exponent ←
    match text.dropWhile (!isMark ·) with
    | [] => some 0
    | _ :: exponent => signed exponent
  pure (.ofRat (n * 10 ^ (exponent - places)))

/-- A hexadecimal literal without its sign and its first two characters. -/
def hexadecimal (text : List Char) : Option Binary64 := do
  let isMark : Char → Bool := fun c => c == 'p' || c == 'P'
  let text := dropTypeSuffix text
  let (n, places) ← pointed hexDigit 16 (text.takeWhile (!isMark ·))
  let exponent ← signed ((text.dropWhile (!isMark ·)).drop 1)
  pure (.ofRat (n * 2 ^ (exponent - 4 * places)))

/-- A literal without its sign. -/
def unsigned (text : List Char) : Option Binary64 :=
  if text = "NaN".toList then some .nan
  else if text = "Infinity".toList then some .posInf
  else
    match text with
    | '0' :: 'x' :: digits => hexadecimal digits
    | '0' :: 'X' :: digits => hexadecimal digits
    | digits => decimal digits

/-- `Double.parseDouble`, with none for the exception. -/
def parseDouble (text : String) : Option Binary64 :=
  match (trim text).toList with
  | '-' :: literal => (unsigned literal).map .neg
  | '+' :: literal => unsigned literal
  | literal => unsigned literal

end java.lang.Double

namespace java.text

/-- A number with commas between groups of three digits. -/
def grouped (n : Nat) : String :=
  if n < 1000 then toString n
  else
    let last := toString (n % 1000)
    grouped (n / 1000) ++ "," ++ String.ofList (List.replicate (3 - last.length) '0') ++ last

/-- At most two places behind the point, without zeros at the end. -/
def decimalPlaces (hundredths : Nat) : String :=
  if hundredths = 0 then ""
  else if hundredths % 10 = 0 then "." ++ toString (hundredths / 10)
  else if hundredths < 10 then ".0" ++ toString hundredths
  else "." ++ toString hundredths

/-- `new DecimalFormat("#,##0.##").format` rounds half even. -/
def decimalFormat : Binary64 → String
  | .nan => "\uFFFD"
  | .posInf => "∞"
  | .negInf => "-∞"
  | .finite x =>
    let hundredths := (roundEven (|x| * 100)).toNat
    (if x < 0 then "-" else "") ++ grouped (hundredths / 100) ++ decimalPlaces (hundredths % 100)

end java.text
