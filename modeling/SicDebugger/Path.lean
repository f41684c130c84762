import SicDebugger.Text.Split

/-!
# Paths

A path is a root or none, and the names behind it; repeated and trailing slashes and the name `.`
say nothing and are dropped when it is read. The normal form resolves `..` by the text alone: it
takes the name before it away, another `..` included, and stays where there is none to take.
-/

namespace SicDebugger

/-- A path: whether it starts at the root, and its names. -/
structure Path where
  absolute : Bool
  names : List String
deriving DecidableEq, Repr, Inhabited

namespace Path

/-- Reads a path. -/
def ofText (s : String) : Path where
  absolute := s.toList.head? == some '/'
  names := ((Text.split '/' s.toList).map String.ofList).filter fun n => n ≠ "" ∧ n ≠ "."

/-- Writes a path. -/
def toText (p : Path) : String :=
  (if p.absolute then "/" else "") ++ "/".intercalate p.names

/-- Goes on by one name from the names behind, the last of which comes first. -/
def advance (behind : List String) (name : String) : List String :=
  if name = ".." then
    match behind with
    | [] => [".."]
    | _ :: r => r
  else name :: behind

/-- The path with each `..` resolved by the text alone. -/
def normal (p : Path) : Path := { p with names := (p.names.foldl advance []).reverse }

/-- The part of a path below a root, if it lies there. Everything lies below the empty path. -/
def below? (root p : Path) : Option Path :=
  if root.absolute = false ∧ root.names = [] then some p
  else if root.absolute = p.absolute ∧ root.names.isPrefixOf p.names then
    some ⟨false, p.names.drop root.names.length⟩
  else none

/-- The text under which a file of the project is known: its normal form, without the root where
it lies below the root, and with a slash for each backslash. -/
def key (root : Option Path) (file : String) : String :=
  let path := (ofText file).normal
  let known :=
    match root with
    | some root => if path.absolute then (below? root path).getD path else path
    | none => path
  String.ofList (known.toText.toList.map fun c => if c = '\\' then '/' else c)

end Path
end SicDebugger
