import GraphBridge.Text.Ligature

/-!
# Display width

How many columns of a terminal a line of text takes. Mostly each character adds its own columns, but
a picture takes two columns however many characters it is made of, a ligature takes fewer columns
than its letters, and a selector changes the width of the character in front of it. All of these are
recognized by what follows a character, so a line is measured from its end.
-/

namespace GraphBridge.Text

/-- What follows a place in a line, as far as it bears on the columns of the character there. -/
inductive Following where
  /-- Nothing that matters. -/
  | plain
  | lineFeed
  /-- A picture. -/
  | picture
  /-- A modifier of tone. -/
  | tone
  /-- The given number of regional letters. -/
  | regional (letters : Nat)
  /-- A joiner before a picture. -/
  | joined
  /-- The frame of a key before a joined picture. -/
  | joinedKeycap
  /-- The given number of regional letters before a joined picture. -/
  | joinedRegional (letters : Nat)
  /-- Tags that end a flag before a joined picture: letters, and digits in front of them. -/
  | joinedTags (letters digits : Nat)
  /-- A Kirat Rai vowel sign e. -/
  | vowelE
  /-- A Kirat Rai vowel sign ai, whole or as two signs. -/
  | vowelAi
  /-- The last letters of a ligature, and whether a joiner stands before them. -/
  | ligature (ending : Ligature) (across : Bool)
  deriving DecidableEq, Repr

namespace Following

/-- What a character looks like to the one in front of it. -/
def ofChar (c : Char) : Following :=
  if isRegionalLetter c then .regional 1
  else if isTone c then .tone
  else if isPicture c then .picture
  else if c.toNat == 0x16d67 then .vowelE
  else if c.toNat == 0x16d68 then .vowelAi
  else match Ligature.ofChar? c with
    | some ending => .ligature ending false
    | none => .plain

/-- Whether the last letters of a ligature follow. -/
def isLigature : Following → Bool
  | .ligature .. => true
  | _ => false

/-- Whether a picture here would be joined to the one that follows. -/
def isJoined : Following → Bool
  | .joined | .joinedKeycap => true
  | _ => false

/-- The columns that a regional letter adds before others in front of a joined picture. Two letters
make a flag that belongs to the picture; any more stand by themselves. -/
def joinedRegionalColumns (letters : Nat) : Int :=
  if letters % 2 = 1 then -1 else 3

/-- Another tag in front of a run of tags, or the flag that the run belongs to. A run spells a
region by three to six letters, or by three digits and up to four letters after them. -/
def meetTags (letters digits : Nat) (c : Char) : Option Following :=
  if isLetterTag c && digits == 0 && letters < 6 then some (.joinedTags (letters + 1) 0)
  else if isDigitTag c && (digits == 0 && letters ≤ 4 || 0 < digits && digits < 3) then
    some (.joinedTags letters (digits + 1))
  else if c == taggedFlag && (digits == 0 && 3 ≤ letters || digits == 3) then some .picture
  else none

/-- The columns that a character adds together with what follows it, and what the two look like to
the character in front of them; nothing if the character stands by itself. -/
def meet (c : Char) : Following → Option (Int × Following)
  | .plain | .lineFeed | .joinedKeycap => none
  | .picture => if c == joiner then some (0, .joined) else none
  | .tone =>
      if isToneBase c then some (0, .picture)
      else if c == joiner then some (0, .joined)
      else none
  | .regional letters =>
      if isRegionalLetter c then some (1, .regional (letters + 1))
      else if c == joiner && 1 < letters then some (0, .joined)
      else none
  | .joined =>
      if c == keycap then some (0, .joinedKeycap)
      else if isRegionalLetter c then some (1, .joinedRegional 1)
      else if isTone c then some (0, .tone)
      else if c == endTag then some (0, .joinedTags 0 0)
      else if isPicture c then some (0, .picture)
      else none
  | .joinedRegional letters =>
      if isRegionalLetter c then
        some (joinedRegionalColumns letters, .joinedRegional (letters + 1))
      else if c == joiner && 1 < letters then some (0, .joined)
      else none
  | .joinedTags letters digits => (meetTags letters digits c).map ((0, ·))
  | .vowelE =>
      if c.toNat == 0x16d63 || c.toNat == 0x16d69 then some (0, .plain)
      else if c.toNat == 0x16d67 then some (0, .vowelAi)
      else if c.toNat == 0x16d68 then some (1, .vowelE)
      else none
  | .vowelAi => if c.toNat == 0x16d63 then some (0, .plain) else none
  | .ligature ending across =>
      (ending.meet across c).map fun (columns, rest?) =>
        (columns, match rest? with
          | some rest => .ligature rest false
          | none => .plain)

end Following

/-- What follows a place, with the selectors that stand in front of it. -/
structure Ahead where
  following : Following
  /-- A picture is asked for. -/
  asPicture : Bool
  /-- A plain sign is asked for. -/
  asSign : Bool
  /-- A full-width form is asked for. -/
  asWide : Bool
  deriving DecidableEq, Repr

namespace Ahead

/-- What follows a place without selectors. -/
def only (following : Following) : Ahead :=
  ⟨following, false, false, false⟩

/-- The end of a line, or anything that does not matter. -/
def nothing : Ahead := only .plain

/-- What a selector leaves of what follows it: the letters of a ligature, and nothing else. -/
def behindSelector (a : Ahead) : Ahead :=
  if a.following.isLigature then a else nothing

/-- With the selector of pictures in front. Unlike the others it stands between a joiner and the
character it turns into a picture. -/
def selectPicture (a : Ahead) : Ahead :=
  { (if a.following.isJoined then a else a.behindSelector) with asPicture := true }

/-- With the selector of plain signs in front. -/
def selectSign (a : Ahead) : Ahead :=
  { a.behindSelector with asSign := true }

/-- With the selector of full-width forms in front. -/
def selectWide (a : Ahead) : Ahead :=
  { a.behindSelector with asWide := true }

/-- What is left once a picture was asked of a character that has none. -/
def withoutPicture (a : Ahead) : Ahead :=
  if a.asPicture then { a.behindSelector with asPicture := false } else a

/-- The columns of a character by itself, and what it looks like to the one in front of it. -/
def alone (c : Char) : Int × Ahead :=
  (charWidth c,
    if c == pictureSelector then nothing.selectPicture
    else if c == signSelector then nothing.selectSign
    else if c == wideSelector then nothing.selectWide
    else only (.ofChar c))

/-- The columns of a character together with what follows it, if they belong together. -/
def meet (a : Ahead) (c : Char) : Int × Ahead :=
  match if a.asWide then none else a.following.meet c with
  | some (columns, following) => (columns, only following)
  | none => alone c

/-- The same for a character that is no selector, once the selectors had their say: joiners and
transparent marks inside a ligature are passed over. -/
def pass (a : Ahead) (c : Char) : Int × Ahead :=
  match a.following with
  | .ligature ending _ =>
      if ending.isPatient && c == joiner then (0, { a with following := .ligature ending true })
      else if ending.isPatient && transparentRanges.contains c.toNat then (0, a)
      else a.meet c
  | _ => a.meet c

/-- The columns of a character of the ASCII or control range. A line end of two characters takes one
column. -/
def basic (a : Ahead) (c : Char) : Int × Ahead :=
  if c == '\n' then (1, only .lineFeed)
  else if c == '\r' && a.following = .lineFeed then (0, nothing)
  else (1, nothing)

/-- The columns that a character adds in front of what follows it, and what the two look like to the
character in front of them. -/
def push (a : Ahead) (c : Char) : Int × Ahead :=
  if a.asPicture && takesPictureSelector c then
    (if a.following.isJoined then 0 else 2, only .picture)
  else
    let a := a.withoutPicture
    if c.toNat ≤ 0xa0 then a.basic c
    else if c == pictureSelector then (0, a.selectPicture)
    else if c == signSelector then (0, a.selectSign)
    else if c == wideSelector then (0, a.selectWide)
    else if a.asSign then
      if takesSignSelector c then (1, nothing) else { a with asSign := false }.pass c
    else if a.asWide then
      if takesWideSelector c then (2, nothing) else { a with asWide := false }.pass c
    else a.pass c

end Ahead

/-- The columns that characters take together, and what they look like to one in front of them. -/
def measure : List Char → Int × Ahead
  | [] => (0, .nothing)
  | c :: rest =>
      let (columns, ahead) := measure rest
      let (more, ahead) := ahead.push c
      (columns + more, ahead)

/-- The columns that a line of text takes. -/
def width (line : String) : Nat :=
  (measure line.toList).1.toNat

end GraphBridge.Text
