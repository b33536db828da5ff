import GraphBridge.Query.Token

/-!
# Query fragments

A fragment is query text in tokens. An identifier in it is a variable unless its neighbours make it
something else: a property after a point, a label after a colon outside a map, a key before a colon
inside a map, or a function before a bracket. Neighbours are the nearest tokens that are neither
white space nor comments.
-/

namespace GraphBridge.Query

/-- Query text in tokens. -/
structure Fragment where
  tokens : List Token
  deriving DecidableEq, Repr

/-- A token with what is known from its place. -/
structure Placed where
  token : Token
  /-- The nearest meaningful token before it. -/
  before : Option Token
  /-- Whether it stands for a variable. -/
  isVariable : Bool
  deriving DecidableEq, Repr

namespace Fragment

/-- The fragment that a text spells. -/
def ofText (text : String) : Except Unterminated Fragment :=
  (tokenize text).map Fragment.mk

/-- The text of a fragment. -/
def text (f : Fragment) : String :=
  String.join (f.tokens.map Token.text)

/-- The first meaningful token. -/
def firstMeaningful (tokens : List Token) : Option Token :=
  tokens.find? fun t => !t.isTrivia

/-- Whether an identifier stands for a variable, given the innermost open bracket and its
neighbours. -/
def isVariableBetween (bracket : Option Char) (before after : Option Token) : Bool :=
  let inMap := bracket == some '{'
  let property := before.any (·.isSymbol '.')
  let label := !inMap && before.any (·.isSymbol ':')
  let mapKey := inMap && after.any (·.isSymbol ':')
  let function := after.any (·.isSymbol '(')
  !(property || label || mapKey || function)

/-- The open brackets after a token, innermost first. -/
def bracketsAfter (brackets : List Char) (t : Token) : List Char :=
  match t.kind with
  | .symbol c =>
      if t.opens then c :: brackets else if t.closes then brackets.drop 1 else brackets
  | _ => brackets

/-- Each token with its place, given the open brackets and the last meaningful token before. -/
def placedFrom (brackets : List Char) (before : Option Token) : List Token → List Placed
  | [] => []
  | t :: rest =>
      let isVariable :=
        t.kind == .identifier && isVariableBetween brackets.head? before (firstMeaningful rest)
      ⟨t, before, isVariable⟩ ::
        placedFrom (bracketsAfter brackets t) (if t.isTrivia then before else some t) rest

/-- Each token with its place. -/
def placed (f : Fragment) : List Placed :=
  placedFrom [] none f.tokens

/-- Whether a fragment holds nothing but white space and comments. -/
def isEmpty (f : Fragment) : Bool :=
  f.tokens.all Token.isTrivia

/-- The first word, if the fragment starts with an identifier. -/
def leadingKeyword (f : Fragment) : Option String :=
  match firstMeaningful f.tokens with
  | some t => if t.kind == .identifier then some t.text else none
  | none => none

/-- The variable that is all a fragment holds. -/
def soleVariable (f : Fragment) : Option String :=
  match f.tokens.filter (fun t => !t.isTrivia) with
  | [t] => if t.kind == .identifier then some t.text else none
  | _ => none

/-- Whether a placed token binds its variable: it opens a node or edge pattern, or `AS` introduces
it. The variable `this` is bound outside. -/
def binds (p : Placed) : Bool :=
  p.isVariable && p.token.text != "this"
    && p.before.any fun t => t.isSymbol '(' || t.isSymbol '[' || t.isKeyword "AS"

/-- The variables that a fragment binds, in the order in which they are first bound. -/
def boundVariables (f : Fragment) : List String :=
  ((f.placed.filter binds).map (·.token.text)).foldl
    (fun bound name => if bound.contains name then bound else bound ++ [name]) []

/-- Whether a name occurs as a variable. -/
def mentions (f : Fragment) (name : String) : Bool :=
  f.placed.any fun p => p.isVariable && p.token.text == name

/-- The variables of a fragment, one for each place at which it has one. -/
def variableNames (f : Fragment) : List String :=
  (f.placed.filter (·.isVariable)).map (·.token.text)

/-- A placed token after renaming. -/
def renameToken (rename : String → Option String) (p : Placed) : Token :=
  if p.isVariable then { p.token with text := (rename p.token.text).getD p.token.text }
  else p.token

/-- Renames every variable for which there is a new name; all else stays. -/
def renameVariables (f : Fragment) (rename : String → Option String) : Fragment :=
  ⟨f.placed.map (renameToken rename)⟩

/-- The bracket depth after a token; a closing bracket never takes it below zero. -/
def depthAfter (depth : Nat) (t : Token) : Nat :=
  if t.opens then depth + 1 else if t.closes then depth - 1 else depth

/-- The tokens before and after the last `RETURN` outside all brackets. -/
def splitFrom (depth : Nat) : List Token → Option (List Token × List Token)
  | [] => none
  | t :: rest =>
      match splitFrom (depthAfter depth t) rest with
      | some (body, tail) => some (t :: body, tail)
      | none => if depth == 0 && t.isKeyword "RETURN" then some ([], rest) else none

/-- The tokens without white space at either end. -/
def trim (tokens : List Token) : List Token :=
  let isBlank := fun (t : Token) => t.kind == .blank
  (((tokens.dropWhile isBlank).reverse).dropWhile isBlank).reverse

/-- The body before the last `RETURN` outside all brackets and the expression after it. -/
def splitReturn (f : Fragment) : Option (Fragment × Fragment) :=
  (splitFrom 0 f.tokens).map fun (body, tail) => (⟨trim body⟩, ⟨trim tail⟩)

/-- Whether a return expression calls a function, and so aggregates. -/
def isAggregate (f : Fragment) : Bool :=
  f.tokens.any (·.isSymbol '(')

end Fragment

end GraphBridge.Query
