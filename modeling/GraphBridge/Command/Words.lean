import GraphBridge.Table

/-!
# Words of a command line

A word is a setting, the mark that ends the settings, or plain. Settings are given by name
(`--name`, `--name=value`, `--name value`) or by letter (`-l`, `-lvalue`, `-l=value`, `-l value`),
and switches given by letter may share one dash. A value that stands as a word of its own is plain.
-/

namespace GraphBridge.Command

/-- What a setting takes. -/
inductive SettingKind where
  /-- Nothing: it is on or off. -/
  | switch
  /-- A value. -/
  | value
  /-- Nothing, and it ends the reading of the command line. -/
  | halt
  deriving DecidableEq, Repr

/-- A setting that may be given. -/
structure Setting where
  name : String
  letter? : Option Char := none
  kind : SettingKind := .value
  deriving DecidableEq, Repr

/-- Settings with their values; a switch has the empty one. -/
abbrev Given := List (String × String)

/-- What one word says. -/
inductive Word where
  | plain
  /-- Every later word is plain. -/
  | endMark
  /-- Settings, each with its value. -/
  | given (settings : Given)
  /-- Settings, and the name of one whose value is the next word. -/
  | awaiting (settings : Given) (name : String)
  /-- Settings of which the last ends the reading. -/
  | halting (settings : Given)
  deriving DecidableEq, Repr

namespace Word

/-- Puts a setting in front of those of a word. -/
def add (setting : String × String) : Word → Word
  | .given settings => .given (setting :: settings)
  | .awaiting settings name => .awaiting (setting :: settings) name
  | .halting settings => .halting (setting :: settings)
  | word => word

/-- A value without the equals sign that may set it off. -/
def attached : List Char → String
  | '=' :: value => String.ofList value
  | value => String.ofList value

/-- Settings by letter. -/
def ofLetters? (known : List Setting) : List Char → Option Word
  | [] => some (.given [])
  | letter :: rest =>
      match known.find? (·.letter? == some letter) with
      | none => none
      | some setting =>
          match setting.kind with
          | .switch => (ofLetters? known rest).map (add (setting.name, ""))
          | .halt => some (.halting [(setting.name, "")])
          | .value =>
              if rest.isEmpty then some (.awaiting [] setting.name)
              else some (.given [(setting.name, attached rest)])

/-- A setting by name, with the value that an equals sign sets off. -/
def ofName? (known : List Setting) (text : List Char) : Option Word :=
  let name := String.ofList (text.takeWhile (· != '='))
  let value := text.dropWhile (· != '=')
  match known.find? (·.name == name) with
  | none => none
  | some setting =>
      match setting.kind, value with
      | .switch, [] => some (.given [(name, "")])
      | .halt, [] => some (.halting [(name, "")])
      | .value, [] => some (.awaiting [] name)
      | .value, value => some (.given [(name, attached value)])
      | _, _ => none

/-- What a word says, unless it names a setting that is not known. -/
def read? (known : List Setting) (text : String) : Option Word :=
  match text.toList with
  | ['-'] => some .plain
  | ['-', '-'] => some .endMark
  | '-' :: '-' :: rest => ofName? known rest
  | '-' :: rest => ofLetters? known rest
  | _ => some .plain

end Word

/-- The settings and the plain words of a command line. -/
structure Words where
  given : Given := []
  plain : List String := []
  deriving DecidableEq, Repr

namespace Words

/-- Puts settings in front. -/
def addGiven (settings : Given) (words : Words) : Words :=
  { words with given := settings ++ words.given }

/-- Puts a plain word in front. -/
def addPlain (word : String) (words : Words) : Words :=
  { words with plain := word :: words.plain }

/-- Reads words, or refuses them. If reading `stops` at the first plain word, that word and all
after it are left as they are, and no mark may end the settings. -/
def scan? (known : List Setting) (stops : Bool) : List String → Option Words
  | [] => some {}
  | text :: rest =>
      match Word.read? known text with
      | none => none
      | some .plain =>
          if stops then some { plain := text :: rest }
          else (scan? known stops rest).map (addPlain text)
      | some .endMark => if stops then none else some { plain := rest }
      | some (.given settings) => (scan? known stops rest).map (addGiven settings)
      | some (.halting settings) => some { given := settings }
      | some (.awaiting settings name) =>
          match rest with
          | [] => none
          | value :: rest =>
              if Word.read? known value = some .plain then
                (scan? known stops rest).map (addGiven (settings ++ [(name, value)]))
              else none

/-- Reads words in which no setting is given twice. -/
def read? (known : List Setting) (stops : Bool) (texts : List String) : Option Words := do
  let words ← scan? known stops texts
  if (words.given.map Prod.fst).Nodup then some words else none

/-- Whether a setting is given. -/
def has (words : Words) (name : String) : Bool :=
  (Table.get? words.given name).isSome

/-- The value of a setting. -/
def value? (words : Words) (name : String) : Option String :=
  Table.get? words.given name

/-- The value of a setting, if it is given, as something that not every value stands for. -/
def parsed? {α : Type} (words : Words) (name : String) (parse : String → Option α) :
    Option (Option α) :=
  match words.value? name with
  | none => some none
  | some text => (parse text).map some

end Words

end GraphBridge.Command
