import SicDebugger.Json.Basic
import SicDebugger.Text.Numeral

/-!
# Reading a JSON text

A text is one value between blanks, and nothing more. The reader descends along the grammar and
returns the value with the characters that follow it; its fuel counts the values that may still be
opened, and the length of the text is always enough.
-/

namespace SicDebugger

namespace Json

/-- Skips the blanks of the format. -/
def skipBlanks (s : List Char) : List Char :=
  s.dropWhile fun c => c = ' ' || c = '\t' || c = '\n' || c = '\r'

/-- The value of four hexadecimal digits at the front. -/
def readUnit? : List Char → Option (Nat × List Char)
  | a :: b :: c :: d :: r =>
    match Text.digitValue? 16 a, Text.digitValue? 16 b, Text.digitValue? 16 c,
      Text.digitValue? 16 d with
    | some a, some b, some c, some d => some (((a * 16 + b) * 16 + c) * 16 + d, r)
    | _, _, _, _ => none
  | _ => none

/-- The character behind a backslash, for the escapes of one letter. -/
def escaped? : Char → Option Char
  | '"' => some '"'
  | '\\' => some '\\'
  | '/' => some '/'
  | 'b' => some '\x08'
  | 'f' => some '\x0c'
  | 'n' => some '\n'
  | 'r' => some '\r'
  | 't' => some '\t'
  | _ => none

/-- Reads what follows an opening quote up to the closing one. The characters read so far are given
in reverse; they are nothing once half of a surrogate pair has been met. -/
def readString? : (fuel : Nat) → Option (List Char) → List Char →
    Option (Option (List Char) × List Char)
  | 0, _, _ => none
  | fuel + 1, seen, s =>
    match s with
    | [] => none
    | '"' :: r => some (seen.map List.reverse, r)
    | '\\' :: 'u' :: r =>
      match readUnit? r with
      | none => none
      | some (u, r) =>
        if 0xDC00 ≤ u ∧ u ≤ 0xDFFF then readString? fuel none r
        else if 0xD800 ≤ u ∧ u ≤ 0xDBFF then
          match r with
          | '\\' :: 'u' :: t =>
            match readUnit? t with
            | none => none
            | some (v, t) =>
              if 0xDC00 ≤ v ∧ v ≤ 0xDFFF then
                let c := Char.ofNat (0x10000 + (u - 0xD800) * 0x400 + (v - 0xDC00))
                readString? fuel (seen.map (c :: ·)) t
              else readString? fuel none r
          | _ => readString? fuel none r
        else readString? fuel (seen.map (Char.ofNat u :: ·)) r
    | '\\' :: c :: r =>
      match escaped? c with
      | none => none
      | some c => readString? fuel (seen.map (c :: ·)) r
    | c :: r => if c.toNat < 0x20 then none else readString? fuel (seen.map (c :: ·)) r

/-- The digits at the front, at least one, as values. -/
def readDigits? (s : List Char) : Option (List Nat × List Char) :=
  let digits := s.takeWhile Char.isDigit
  if digits.isEmpty then none
  else some (digits.map fun c => c.toNat - '0'.toNat, s.dropWhile Char.isDigit)

/-- Reads the fraction, if a point follows. -/
def readFraction? : List Char → Option (Option (List Nat) × List Char)
  | '.' :: r => (readDigits? r).map fun (d, t) => (some d, t)
  | s => some (none, s)

/-- Reads the exponent, if its letter follows. -/
def readExponent? : List Char → Option (Option Int × List Char)
  | [] => some (none, [])
  | c :: r =>
    if c = 'e' ∨ c = 'E' then
      let (minus, r) : Bool × List Char :=
        match r with
        | '-' :: t => (true, t)
        | '+' :: t => (false, t)
        | t => (false, t)
      (readDigits? r).map fun (d, t) =>
        let n : Int := (d.foldl (fun n d => n * 10 + d) 0 : Nat)
        (some (if minus then -n else n), t)
    else some (none, c :: r)

/-- Takes a minus sign off the front. -/
def readMinus : List Char → Bool × List Char
  | '-' :: r => (true, r)
  | s => (false, s)

/-- Reads an integer part. It starts with a zero only if it is zero. -/
def readWhole? : List Char → Option (Nat × List Char)
  | '0' :: r => some (0, r)
  | s => (readDigits? s).map fun (d, t) => (d.foldl (fun n d => n * 10 + d) 0, t)

/-- Reads a number. -/
def readNumber? (s : List Char) : Option (Number × List Char) :=
  let (negative, s) := readMinus s
  match readWhole? s with
  | none => none
  | some (whole, r) =>
    match readFraction? r with
    | none => none
    | some (fraction, r) =>
      match readExponent? r with
      | none => none
      | some (exponent, r) => some (⟨negative, whole, fraction, exponent⟩, r)

/-- The value of a text that was read, or could only be skipped. -/
def ofChars : Option (List Char) → Json
  | some s => .string (String.ofList s)
  | none => .unreadable

mutual
/-- Reads one value behind blanks. -/
def readValue? : (fuel : Nat) → List Char → Option (Json × List Char)
  | 0, _ => none
  | fuel + 1, s =>
    match skipBlanks s with
    | 'n' :: 'u' :: 'l' :: 'l' :: r => some (.null, r)
    | 't' :: 'r' :: 'u' :: 'e' :: r => some (.bool true, r)
    | 'f' :: 'a' :: 'l' :: 's' :: 'e' :: r => some (.bool false, r)
    | '"' :: r => (readString? (r.length + 1) (some []) r).map fun (s, r) => (ofChars s, r)
    | '[' :: r =>
      match skipBlanks r with
      | ']' :: r => some (.array [], r)
      | r => (readItems? fuel r).map fun (items, r) => (.array items, r)
    | '\x7b' :: r =>
      match skipBlanks r with
      | '\x7d' :: r => some (.object [], r)
      | r =>
        (readMembers? fuel r).map fun (members, r) => (members.elim .unreadable .object, r)
    | s => (readNumber? s).map fun (n, r) => (.number n, r)

/-- Reads the items of an array up to its closing bracket. -/
def readItems? : (fuel : Nat) → List Char → Option (List Json × List Char)
  | 0, _ => none
  | fuel + 1, s =>
    match readValue? fuel s with
    | none => none
    | some (j, r) =>
      match skipBlanks r with
      | ']' :: r => some ([j], r)
      | ',' :: r => (readItems? fuel r).map fun (items, r) => (j :: items, r)
      | _ => none

/-- Reads the members of an object up to its closing brace. They are nothing if one of the keys
cannot be read. -/
def readMembers? : (fuel : Nat) → List Char → Option (Option (List (String × Json)) × List Char)
  | 0, _ => none
  | fuel + 1, s =>
    match skipBlanks s with
    | '"' :: r =>
      match readString? (r.length + 1) (some []) r with
      | none => none
      | some (key, r) =>
        match skipBlanks r with
        | ':' :: r =>
          match readValue? fuel r with
          | none => none
          | some (j, r) =>
            let first := key.map fun k => (String.ofList k, j)
            match skipBlanks r with
            | '\x7d' :: r => some (first.map ([·]), r)
            | ',' :: r =>
              (readMembers? fuel r).map fun (rest, r) =>
                (first.bind fun m => rest.map (m :: ·), r)
            | _ => none
        | _ => none
    | _ => none
end

/-- The value that a text holds, or nothing where it is not well formed. -/
def ofText? (s : String) : Option Json :=
  let chars := s.toList
  match readValue? (chars.length + 1) chars with
  | some (j, r) => if (skipBlanks r).isEmpty then some j else none
  | none => none

end Json
end SicDebugger
