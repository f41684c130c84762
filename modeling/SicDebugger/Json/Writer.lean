import SicDebugger.Json.Basic
import SicDebugger.Text.Numeral

/-!
# Writing a JSON text

Values are written without blanks. In a text the quote, the backslash and the control characters
are escaped; every other character stands for itself.
-/

namespace SicDebugger

namespace Json

/-- A character as it stands in a text. -/
def escape (c : Char) : List Char :=
  if c = '"' then ['\\', '"']
  else if c = '\\' then ['\\', '\\']
  else if c = '\n' then ['\\', 'n']
  else if c = '\r' then ['\\', 'r']
  else if c = '\t' then ['\\', 't']
  else if c.toNat < 0x20 then '\\' :: 'u' :: Text.hexFixed 4 c.toNat
  else [c]

/-- A text between its quotes. -/
def writeString (s : String) : List Char := '"' :: (s.toList.flatMap escape ++ ['"'])

/-- The point and the digits of a fraction. -/
def writeFraction : Option (List Nat) → List Char
  | some digits => '.' :: digits.map fun d => Char.ofNat ('0'.toNat + d)
  | none => []

/-- The letter, the sign and the digits of an exponent. -/
def writeExponent : Option Int → List Char
  | some e => 'e' :: ((if e < 0 then ['-'] else []) ++ Nat.toDigits 10 e.natAbs)
  | none => []

/-- A number as it is written. -/
def writeNumber (n : Number) : List Char :=
  (if n.negative then ['-'] else []) ++
    (Nat.toDigits 10 n.whole ++ (writeFraction n.fraction ++ writeExponent n.exponent))

mutual
/-- The characters of a value. -/
def write : Json → List Char
  | .null | .unreadable => ['n', 'u', 'l', 'l']
  | .bool true => ['t', 'r', 'u', 'e']
  | .bool false => ['f', 'a', 'l', 's', 'e']
  | .number n => writeNumber n
  | .string s => writeString s
  | .array items => '[' :: (writeItems items ++ [']'])
  | .object members => '\x7b' :: (writeMembers members ++ ['\x7d'])

/-- The characters of items, with commas between them. -/
def writeItems : List Json → List Char
  | [] => []
  | [j] => write j
  | j :: r => write j ++ ',' :: writeItems r

/-- The characters of members, with commas between them. -/
def writeMembers : List (String × Json) → List Char
  | [] => []
  | [(k, j)] => writeString k ++ ':' :: write j
  | (k, j) :: r => writeString k ++ ':' :: (write j ++ ',' :: writeMembers r)
end

/-- The text of a value. -/
def toText (j : Json) : String := String.ofList (write j)

end Json
end SicDebugger
