/-!
# Letter case within ASCII

Keywords and policy names are compared without regard to the case of the 26 Latin letters only; a
character outside ASCII equals nothing but itself.
-/

namespace GraphBridge.Text

/-- The text with its ASCII letters in upper case. -/
def upperAscii (text : String) : String :=
  String.ofList (text.toList.map Char.toUpper)

/-- The text with its ASCII letters in lower case. -/
def lowerAscii (text : String) : String :=
  String.ofList (text.toList.map Char.toLower)

/-- Equality up to the case of ASCII letters. -/
def equalIgnoringCase (left right : String) : Bool :=
  left.toList.map Char.toLower == right.toList.map Char.toLower

end GraphBridge.Text
