import SicDebugger.Text.Numeral

/-!
# Socket addresses

The address to listen at is an IPv4 address, or an IPv6 address in brackets with an optional scope,
and a number behind a colon. An IPv6 address has eight groups of hexadecimal digits, the last two of
which may be written as an IPv4 address, and one run of zero groups may be left out for `::`. It is
written with the longest such run left out, the first one of equals, and one that stands for an IPv4
address with that address at its end.
-/

namespace SicDebugger

/-- An address to listen at. -/
inductive SocketAddress where
  | v4 (octets : List Nat) (tcpPort : Nat)
  | v6 (groups : List Nat) (scope : Nat) (tcpPort : Nat)
deriving DecidableEq, Repr, Inhabited

namespace SocketAddress

/-! ## Reading -/

/-- Digits of the radix at the front, with what follows them. -/
def spanDigits (radix : Nat) : List Char → List Nat × List Char
  | [] => ([], [])
  | c :: r =>
    match Text.digitValue? radix c with
    | some d => ((d :: (spanDigits radix r).1), (spanDigits radix r).2)
    | none => ([], c :: r)

/-- Reads a number below `bound` at the front, of at most `most` digits if that is limited. -/
def readNumber? (radix : Nat) (most : Option Nat) (zeroes : Bool) (bound : Nat) (s : List Char) :
    Option (Nat × List Char) :=
  let (digits, rest) := spanDigits radix s
  let value := digits.foldl (fun n d => n * radix + d) 0
  let padded := digits.head? == some 0 && decide (1 < digits.length)
  if digits.isEmpty || most.any (· < digits.length) || (padded && !zeroes) || decide (bound ≤ value)
  then none
  else some (value, rest)

/-- Reads one given character. -/
def readChar? (c : Char) : List Char → Option (List Char)
  | d :: r => if d = c then some r else none
  | [] => none

/-- Reads the four octets of an IPv4 address, which have no leading zeros. -/
def readOctets? (s : List Char) : Option (List Nat × List Char) := do
  let octet := readNumber? 10 (some 3) false 256
  let (a, s) ← octet s
  let (b, s) ← octet (← readChar? '.' s)
  let (c, s) ← octet (← readChar? '.' s)
  let (d, s) ← octet (← readChar? '.' s)
  return ([a, b, c, d], s)

/-- The two groups that an IPv4 address stands for. -/
def groupsOfOctets : List Nat → List Nat
  | [a, b, c, d] => [a * 256 + b, c * 256 + d]
  | _ => []

/-- Steps over the colon in front of every group but the first. -/
def beforeGroup? (first : Bool) (s : List Char) : Option (List Char) :=
  if first then some s else readChar? ':' s

/-- Reads as many groups as there are, at most `room`. An IPv4 address may end them where there is
room for two groups, and it is told whether one did. -/
def readGroups : (room : Nat) → (first : Bool) → List Char → List Nat × Bool × List Char
  | 0, _, s => ([], false, s)
  | room + 1, first, s =>
    let next := beforeGroup? first s
    match if 0 < room then next.bind readOctets? else none with
    | some (octets, r) => (groupsOfOctets octets, true, r)
    | none =>
      match next.bind (readNumber? 16 (some 4) true UInt16.size) with
      | some (g, r) =>
        let (groups, mixed, r) := readGroups room false r
        (g :: groups, mixed, r)
      | none => ([], false, s)

/-- Reads the eight groups of an IPv6 address. -/
def readAddress? (s : List Char) : Option (List Nat × List Char) :=
  let (head, mixed, r) := readGroups 8 true s
  if head.length = 8 then some (head, r)
  else if mixed then none
  else
    match r with
    | ':' :: ':' :: r =>
      let (tail, _, r) := readGroups (7 - head.length) true r
      some (head ++ List.replicate (8 - head.length - tail.length) 0 ++ tail, r)
    | _ => none

/-- Reads the number behind its colon. -/
def readTcpPort? (s : List Char) : Option (Nat × List Char) :=
  (readChar? ':' s).bind (readNumber? 10 none true UInt16.size)

/-- Reads an IPv4 address with its number. -/
def readV4? (s : List Char) : Option (SocketAddress × List Char) := do
  let (octets, s) ← readOctets? s
  let (tcpPort, s) ← readTcpPort? s
  return (.v4 octets tcpPort, s)

/-- Reads the scope behind its percent sign. Where none can be read the scope is zero. -/
def readScope (s : List Char) : Nat × List Char :=
  ((readChar? '%' s).bind (readNumber? 10 none true UInt32.size)).getD (0, s)

/-- Reads an IPv6 address in brackets with its number. -/
def readV6? (s : List Char) : Option (SocketAddress × List Char) := do
  let (groups, s) ← readAddress? (← readChar? '[' s)
  let (scope, s) := readScope s
  let (tcpPort, s) ← readTcpPort? (← readChar? ']' s)
  return (.v6 groups scope tcpPort, s)

/-- Reads an address that is the whole text. -/
def ofText? (text : String) : Option SocketAddress :=
  match (readV4? text.toList).or (readV6? text.toList) with
  | some (a, []) => some a
  | _ => none

/-! ## Writing -/

/-- The length of the run of zeros at the front. -/
def zeroRun (groups : List Nat) : Nat := (groups.takeWhile (· == 0)).length

/-- Place and length of the longest run of zeros, the first one of equals. -/
def longestZeros (groups : List Nat) : Nat × Nat :=
  (List.range groups.length).foldl (fun (place, length) i =>
    let run := zeroRun (groups.drop i)
    if length < run then (i, run) else (place, length)) (0, 0)

/-- Groups with colons between them. -/
def groupsText (groups : List Nat) : String := ":".intercalate (groups.map Text.hexPlain)

/-- The text of an IPv4 address. -/
def octetsText (octets : List Nat) : String := ".".intercalate (octets.map toString)

/-- The text of an IPv6 address. -/
def addressText (groups : List Nat) : String :=
  match groups with
  | [0, 0, 0, 0, 0, 0xFFFF, g, h] => "::ffff:" ++ octetsText [g / 256, g % 256, h / 256, h % 256]
  | groups =>
    let (place, length) := longestZeros groups
    if 1 < length then
      groupsText (groups.take place) ++ "::" ++ groupsText (groups.drop (place + length))
    else groupsText groups

/-- The text of an address. A scope of zero is not written. -/
def toText : SocketAddress → String
  | v4 octets tcpPort => octetsText octets ++ ":" ++ toString tcpPort
  | v6 groups scope tcpPort =>
    "[" ++ addressText groups ++ (if scope = 0 then "" else "%" ++ toString scope) ++ "]:" ++
      toString tcpPort

end SocketAddress
end SicDebugger
