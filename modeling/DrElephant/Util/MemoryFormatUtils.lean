import DrElephant.Java.Double
import DrElephant.Java.Exception
import DrElephant.Library.Regex
import DrElephant.Math.Statistics

open drelephant.math ieee java.lang java.text regex

namespace drelephant.util.MemoryFormatUtils

structure MemoryUnit where
  name : String
  bytes : Int
  deriving DecidableEq, Repr

/-- Units must be in a descent order. -/
def UNITS : List MemoryUnit :=
  [⟨"TB", 2 ^ 40⟩, ⟨"GB", 2 ^ 30⟩, ⟨"MB", 2 ^ 20⟩, ⟨"KB", 2 ^ 10⟩, ⟨"B", 1⟩]

def REGEX : String := "([-+]?\\d*\\.?\\d+(?:[eE][-+]?\\d+)?)\\s*((?:[T|G|M|K])?B?)?"

section pattern

def isDigit (c : Char) : Bool := '0' ≤ c && c ≤ '9'

def isSign (c : Char) : Bool := c == '-' || c == '+'

def isSpace (c : Char) : Bool := [' ', '\t', '\n', '\x0B', '\x0C', '\r'].contains c

/-- The characters of a class, in either case. -/
def oneOf (characters : List Char) (c : Char) : Bool := characters.contains c.toUpper

def number : Regex :=
  .all [.optional (.set isSign), .star isDigit, .optional (.set (· == '.')), .plus isDigit,
    .optional (.all [.set (oneOf ['E']), .optional (.set isSign), .plus isDigit])]

def unit : Regex :=
  .seq (.optional (.set (oneOf ['T', '|', 'G', '|', 'M', '|', 'K']))) (.optional (.set (oneOf ['B'])))

def REGEX_MATCHER : Regex :=
  .all [.group 1 number, .star isSpace, .optional (.group 2 unit)]

end pattern

/-- Given a memory value in bytes, convert it to a string with the unit that
round to a >0 integer part. -/
def bytesToString (value : Int) : Except JavaException String :=
  if value < 0 then .error (.illegalArgument ("Invalid memory size: " ++ toString value))
  else
    match UNITS.find? fun unit => unit.bytes ≤ value with
    | some unit =>
      let numResult :=
        if unit.bytes > 1 then (Binary64.ofInt value).div (.ofInt unit.bytes) else .ofInt value
      .ok (decimalFormat numResult ++ " " ++ unit.name)
    | none => .ok (toString value ++ " B")

variable (formats : NumberFormats)

/-- Convert a formatted string into a long value in bytes. -/
def stringToBytes (formattedString : Option String) : Except JavaException Int :=
  match formattedString with
  | none => .ok 0
  | some text =>
    match REGEX_MATCHER.fullMatch text.toList with
    | none => .error (.illegalArgument ("The formatted string [" ++ text ++
        "] does not match with the regex /" ++ REGEX ++ "/"))
    | some found => do
      let number ← dereference (found.group 1)
      let numPart ← (Double.parseDouble (String.ofList number)).elim (.error .numberFormat) .ok
      if numPart.lt (.finite 0) then
        .error (.illegalArgument ("The number part of the memory cannot be less than zero: [" ++
          formats.doubleToString numPart ++ "]."))
      else
        let unit ← dereference (found.group 2)
        let unitPart := unit.map Char.toUpper
        let unitPart := String.ofList (if unitPart.getLast? = some 'B' then unitPart else unitPart ++ ['B'])
        match UNITS.find? fun unit => unit.name == unitPart with
        | some unit => .ok (numPart.mul (.ofInt unit.bytes)).toLong
        | none => .error (.illegalArgument ("The formatted string [" ++ text ++ "] 's unit part [" ++
            unitPart ++ "] does not match any unit. The supported units are (case-insensitive, and " ++
            "also the 'B' is ignorable): [" ++ String.join (UNITS.map MemoryUnit.name) ++ "]."))

end drelephant.util.MemoryFormatUtils
