import GraphBridge.Text.Numeric

/-!
# Placeholders

A placeholder is a dollar sign with the longest run of letters, digits and underscores behind it.
Substitution replaces each placeholder whose name has a value, once: the values are not looked at
again. It works on plain text, inside quotes as well as outside, so that `'$name'` quotes a raw
value.
-/

namespace GraphBridge.Query

/-- A character of a placeholder's name. -/
def isPlaceholderPart (c : Char) : Bool :=
  Text.isAlphanumeric c || c == '_'

/-- What stands for the placeholder of a name. -/
def placeholderText (lookup : String → Option String) (name : List Char) : List Char :=
  let written := '$' :: name
  if name.isEmpty then written
  else match lookup (String.ofList name) with
    | some value => value.toList
    | none => written

/-- Substitution in a list of characters. -/
def substituteChars (lookup : String → Option String) : List Char → List Char
  | [] => []
  | c :: rest =>
      if c == '$' then
        placeholderText lookup (rest.takeWhile isPlaceholderPart)
          ++ substituteChars lookup (rest.dropWhile isPlaceholderPart)
      else c :: substituteChars lookup rest
termination_by input => input.length
decreasing_by
  · have shorter := (List.dropWhile_suffix isPlaceholderPart (l := rest)).length_le
    simp only [List.length_cons]
    omega
  · simp

/-- The text with each placeholder that has a value replaced by it. -/
def substitute (text : String) (lookup : String → Option String) : String :=
  String.ofList (substituteChars lookup text.toList)

end GraphBridge.Query
