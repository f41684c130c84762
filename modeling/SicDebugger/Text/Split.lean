/-!
# Splitting at a separator

A text falls into parts at each place where the separator stands. There is one more part than there
are separators, and a part may be empty.
-/

namespace SicDebugger.Text

/-- The parts between the separators. -/
def split (sep : Char) : List Char → List (List Char)
  | [] => [[]]
  | c :: r =>
    if c = sep then [] :: split sep r
    else
      match split sep r with
      | p :: rest => (c :: p) :: rest
      | [] => [[c]]

theorem split_ne_nil (sep : Char) (s : List Char) : split sep s ≠ [] := by
  cases s with
  | nil => simp [split]
  | cons c r =>
    simp only [split]
    split
    · simp
    · split <;> simp

end SicDebugger.Text
