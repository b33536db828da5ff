import GraphBridge.Text.Casing

/-!
# Spelling distance and hints

The distance between two names is the least number of insertions, deletions and substitutions of
single characters that turns one into the other, letter case aside. It is computed row by row: after
`n` characters of the first name, the row holds the distance from those `n` characters to every
leading part of the second name. A hint is the first of the nearest known names, as long as it is
near enough for the length of the name asked for.
-/

namespace GraphBridge.Text

/-- The rest of a row after its entry `left`: `above` is the row before from the column of `left`
on, and `c` the character of the first name the row belongs to. -/
def nextEntries (c : Char) (left : Nat) : List Char → List Nat → List Nat
  | d :: target, diagonal :: up :: above =>
      let entry := min (min (up + 1) (left + 1)) (diagonal + (if c == d then 0 else 1))
      entry :: nextEntries c entry target (up :: above)
  | _, _ => []

/-- The row that follows `row` once the character `c` has been read; `count` characters of the first
name have then been read in all. -/
def nextRow (c : Char) (count : Nat) (target : List Char) (row : List Nat) : List Nat :=
  count :: nextEntries c count target row

/-- The row reached after all characters of the first name, `count` of them having been read. -/
def lastRow (target : List Char) (count : Nat) (row : List Nat) : List Char → List Nat
  | [] => row
  | c :: source => lastRow target (count + 1) (nextRow c (count + 1) target row) source

/-- The edit distance between two lists of characters. -/
def charDistance (source target : List Char) : Nat :=
  ((lastRow target 0 (List.range (target.length + 1)) source).getLast?).getD 0

/-- The edit distance between two names, compared in lower case. -/
def editDistance (left right : String) : Nat :=
  charDistance (lowerCase left) (lowerCase right)

/-- How far a hint may be from a name of the given length. -/
def hintRadius (length : Nat) : Nat :=
  if length ≤ 3 then 1 else if length ≤ 5 then 2 else 3

/-- The first name of least distance among those within the radius. -/
def nearest (query : String) (radius : Nat) : List String → Option (String × Nat)
  | [] => none
  | name :: rest =>
      let distance := editDistance query name
      let later := nearest query radius rest
      if distance ≤ radius then
        match later with
        | some (other, least) =>
            if distance ≤ least then some (name, distance) else some (other, least)
        | none => some (name, distance)
      else later

/-- The known name closest to `query`, if one is close enough. -/
def similar (query : String) (known : List String) : Option String :=
  (nearest query (hintRadius query.length) known).map Prod.fst

/-- The hint shown after a misspelt name. -/
def suggestion (name : String) : String :=
  "Did you mean '" ++ name ++ "'?"

end GraphBridge.Text
