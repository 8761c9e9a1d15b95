/-!
# Lines and padding

A text is cut at line feeds into lines, and lines are joined again with a separator. Cutting a
joined list of lines gives the lines back, provided that there is a line and none holds a feed.
-/
namespace StorageUpgrade.Text

/-- The pieces between the separators, at least one. -/
def splitOn (sep : Char) : List Char → List (List Char)
  | [] => [[]]
  | c :: cs =>
    if c = sep then [] :: splitOn sep cs
    else
      match splitOn sep cs with
      | [] => [[c]]
      | piece :: pieces => (c :: piece) :: pieces

def lines (s : String) : List String := (splitOn '\n' s.toList).map String.ofList

def join (sep : String) : List String → String
  | [] => ""
  | [s] => s
  | s :: t :: rest => s ++ sep ++ join sep (t :: rest)

@[simp] theorem join_nil (sep : String) : join sep [] = "" := rfl

@[simp] theorem join_singleton (sep s : String) : join sep [s] = s := rfl

@[simp] theorem join_cons_cons (sep s t : String) (rest : List String) :
    join sep (s :: t :: rest) = s ++ sep ++ join sep (t :: rest) := rfl

/-- Spaces added on the right up to a number of characters. -/
def padRight (size : Nat) (s : String) : String :=
  s ++ String.ofList (List.replicate (size - s.length) ' ')

/-- The ending that a count takes in English: none after exactly one. -/
def plural (n : Nat) : String := if n = 1 then "" else "s"

end StorageUpgrade.Text
