import SicDebugger.Text.Numeral
import SicDebugger.Text.Printable

/-!
# Quoted text

Error texts show what was given in double quotes, so that blanks and invisible characters can be
seen: a quote and a backslash are preceded by a backslash, the common control characters have
their letters, and every other character without a shape of its own is spelled out by its code
point.
-/

namespace SicDebugger.Text

/-- A character as it stands between double quotes. -/
def quotedChar (c : Char) : List Char :=
  if c = '"' then ['\\', '"']
  else if c = '\\' then ['\\', '\\']
  else if c = '\n' then ['\\', 'n']
  else if c = '\r' then ['\\', 'r']
  else if c = '\t' then ['\\', 't']
  else if c.toNat = 0 then ['\\', '0']
  else if isSpelledOut c then
    ['\\', 'u', '\x7b'] ++ Nat.toDigits 16 c.toNat ++ ['\x7d']
  else [c]

/-- The text between double quotes. -/
def quoted (s : String) : String :=
  String.ofList ('"' :: s.toList.flatMap quotedChar ++ ['"'])

end SicDebugger.Text
