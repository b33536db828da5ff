import GraphBridge.Proofs.Emission
import GraphBridge.Proofs.References
import GraphBridge.Proofs.Uncommented

/-!
# Lines in parts

A line of a statement is made of text of its own and of text taken over from override fragments.
Here each line is given as the list of these parts. A line settles if all that is taken over stands
in the open. Then the line has the same words with other fragments of the same layouts in it, as
long as nothing is written behind a comment at the end of one of them.
-/

namespace GraphBridge.Statement

open Query Text

/-- A piece of a line. -/
inductive Part where
  | own (text : String)
  | taken (text : Inlined)

namespace Part

def text : Part → String
  | .own text => text
  | .taken text => text.text

end Part

/-- The text of parts. -/
def spelled (parts : List Part) : List Char :=
  parts.flatMap (·.text.toList)

@[simp] theorem spelled_nil : spelled [] = [] := rfl

@[simp] theorem spelled_own (text : String) (rest : List Part) :
    spelled (.own text :: rest) = text.toList ++ spelled rest := rfl

@[simp] theorem spelled_taken (i : Inlined) (rest : List Part) :
    spelled (.taken i :: rest) = i.text.toList ++ spelled rest := rfl

@[simp] theorem spelled_append (front back : List Part) :
    spelled (front ++ back) = spelled front ++ spelled back :=
  List.flatMap_append

/-- Lists of parts with separators between them. -/
def separated (separator : String) : List (List Part) → List Part
  | [] => []
  | [last] => last
  | first :: rest => first ++ .own separator :: separated separator rest

theorem spelled_separated {α : Type} (separator : String) {text : α → String}
    {parts : α → List Part} (each : ∀ a, (text a).toList = spelled (parts a)) (items : List α) :
    (separator.intercalate (items.map text)).toList
      = spelled (separated separator (items.map parts)) := by
  induction items with
  | nil => rfl
  | cons a items ih =>
      cases items with
      | nil => simpa [separated] using each a
      | cons b items =>
          simp only [List.map_cons, String.intercalate_cons_cons, String.toList_append] at ih ⊢
          rw [ih, each a]
          simp [separated]

/-! ## The parts of a statement -/

/-- The parts of an expression. -/
def Expression.parts : Expression → List Part
  | .inlined value => [.taken value]
  | expression => [.own expression.text]

theorem Expression.toList_text (e : Expression) : e.text.toList = spelled e.parts := by
  cases e <;> simp [parts, text]

/-- The parts of a clause. -/
def Clause.parts : Clause → List Part
  | .inlined isOptional body => (if isOptional then [.own "OPTIONAL "] else []) ++ [.taken body]
  | .aggregate scope value name =>
      [.own ("WITH " ++ ", ".intercalate scope ++ ", "), .taken value, .own (" AS " ++ name)]
  | .subquery path body value name =>
      .own ("CALL \x7b WITH " ++ path ++ " ")
        :: (if body.renamed.isEmpty then [] else [.taken body, .own " "])
        ++ [.own "RETURN ", .taken value, .own (" AS " ++ name ++ " \x7d")]
  | clause => [.own clause.text]

theorem Clause.toList_text (clause : Clause) : clause.text.toList = spelled clause.parts := by
  cases clause with
  | inlined isOptional body =>
      cases isOptional with
      | false => exact (List.append_nil _).symm
      | true =>
          show ("OPTIONAL " ++ body.text).toList = spelled [.own "OPTIONAL ", .taken body]
          simp
  | aggregate scope value name =>
      show ("WITH " ++ ", ".intercalate scope ++ ", " ++ value.text ++ " AS " ++ name).toList
        = spelled [.own ("WITH " ++ ", ".intercalate scope ++ ", "), .taken value,
          .own (" AS " ++ name)]
      simp
  | subquery path body value name =>
      show ("CALL \x7b WITH " ++ path ++ " "
          ++ (if body.renamed.isEmpty then "" else body.text ++ " ") ++ "RETURN " ++ value.text
          ++ " AS " ++ name ++ " \x7d").toList
        = spelled (.own ("CALL \x7b WITH " ++ path ++ " ")
          :: (if body.renamed.isEmpty then [] else [.taken body, .own " "])
          ++ [.own "RETURN ", .taken value, .own (" AS " ++ name ++ " \x7d")])
      split <;> simp
  | _ => exact (List.append_nil _).symm

theorem Clause.map_toList_text (clauses : List Clause) :
    (clauses.map Clause.text).map String.toList = (clauses.map Clause.parts).map spelled := by
  rw [List.map_map, List.map_map]
  exact List.map_congr_left fun clause _ => clause.toList_text

namespace Frame

/-- The parts of an entry. -/
def entryParts (entry : String × Expression) : List Part :=
  .own (entry.1 ++ ": ") :: entry.2.parts

/-- The parts of the entries as a map. -/
def bodyParts (f : Frame) : List Part :=
  .own "\x7b" :: (separated ", " (f.entries.map entryParts) ++ [.own "\x7d"])

/-- The parts of a collected body. -/
def collectedParts (f : Frame) (limit? : Option Nat) : List Part :=
  let slice := match limit? with
    | some limit => ")[.." ++ toString limit ++ "]"
    | none => ")"
  .own "collect(" :: (f.bodyParts ++ [.own slice])

/-- The parts of the value of an inner frame. -/
def closedParts (f : Frame) : List Part :=
  (match f.closing with
    | .array limit? => f.collectedParts limit?
    | .object | .root .. => f.bodyParts) ++ [.own (" AS " ++ f.carryOver)]

/-- The parts of the value of the outermost frame. -/
def returnedParts (f : Frame) : List Part :=
  match f.closing with
  | .root true limit? _ => f.collectedParts limit?
  | .root false _ true => f.bodyParts ++ [.own " LIMIT 1"]
  | _ => f.bodyParts

theorem toList_entryText (entry : String × Expression) :
    (entryText entry).toList = spelled (entryParts entry) := by
  simp [entryText, entryParts, Expression.toList_text]

theorem toList_body (f : Frame) : f.body.toList = spelled f.bodyParts := by
  have entries := spelled_separated ", " toList_entryText f.entries
  simp only [body, inBraces, String.toList_append, entries]
  simp [bodyParts]

theorem toList_collected (f : Frame) (limit? : Option Nat) :
    (f.collected limit?).toList = spelled (f.collectedParts limit?) := by
  cases limit? <;> simp only [collected, String.toList_append, toList_body]
    <;> simp [collectedParts]

theorem toList_closed (f : Frame) : f.closed.toList = spelled f.closedParts := by
  unfold closed closedParts
  cases f.closing <;> simp only [String.toList_append, toList_body, toList_collected]
    <;> simp

theorem toList_returned (f : Frame) : f.returned.toList = spelled f.returnedParts := by
  unfold returned returnedParts
  cases f.closing with
  | array limit? => exact f.toList_body
  | object => exact f.toList_body
  | root isArray limit? oneRow =>
      match isArray, oneRow with
      | true, _ => exact f.toList_collected limit?
      | false, true => simp [toList_body]
      | false, false => exact f.toList_body

end Frame

namespace Builder

/-- The parts of the `WITH` line of a frame. -/
def withParts (b : Builder) (place : Nat) (f : Frame) : List Part :=
  .own ("WITH " ++ ", ".intercalate (b.kept place) ++ ", ") :: f.closedParts

/-- The parts of the lines of a statement. -/
def lineParts (b : Builder) : List (List Part) :=
  b.clauses.map Clause.parts
    ++ ((b.frames.zipIdx.drop 1).map fun (f, place) => b.withParts place f).reverse
    ++ (b.frames.head?.map fun f => .own "RETURN " :: f.returnedParts).toList

theorem map_toList_lines (b : Builder) : b.lines.map String.toList = b.lineParts.map spelled := by
  have frames : b.withLines.map String.toList
      = ((b.frames.zipIdx.drop 1).map fun (f, place) => b.withParts place f).reverse.map
          spelled := by
    rw [withLines, List.map_reverse, List.map_reverse, List.map_map, List.map_map]
    congr 1
    refine List.map_congr_left fun (f, place) _ => ?_
    simp [withLine, withParts, Frame.toList_closed]
  have returned : b.returnLines.map String.toList
      = (b.frames.head?.map fun f => .own "RETURN " :: f.returnedParts).toList.map spelled := by
    unfold returnLines
    cases b.frames.head? with
    | none => rfl
    | some f => simp [Frame.toList_returned]
  rw [lines, lineParts, List.map_append, List.map_append, List.map_append, List.map_append,
    Clause.map_toList_text, frames, returned]

end Builder

/-! ## Lines that settle -/

/-- Parts that can stand for each other: text of a statement's own only for itself, and what is
taken over for a fragment alike under the same names. -/
inductive Part.Alike : Part → Part → Prop where
  | own (text : String) : Alike (.own text) (.own text)
  | taken {f g : Fragment} (names : Table String) (alike : f.Alike g) :
      Alike (.taken ⟨f, names⟩) (.taken ⟨g, names⟩)

/-- Whether what is taken over stands in the open under names that are identifiers, and no quote is
open at the end of the line. -/
def settlesFrom (m : Mode) : List Part → Bool
  | [] => m.step '\n' == .start
  | .own text :: rest => settlesFrom (m.run text.toList) rest
  | .taken i :: rest =>
      m == .start && i.newNames.all isIdentifier && settlesFrom (m.run i.text.toList) rest

/-- Whether what is taken over ends in a word where there is something behind it. -/
def endsInWords : List Part → Bool
  | [] => true
  | .own _ :: rest => endsInWords rest
  | .taken i :: rest => (rest.isEmpty || i.fragment.endsInWord) && endsInWords rest

namespace Inlined

variable {i : Inlined}

/-- Under names that are identifiers, what is taken over is in tokens. -/
theorem laid (laid : Laid i.fragment.tokens) (named : i.newNames.all isIdentifier = true) :
    Laid i.renamed.tokens :=
  Fragment.laid_rename laid (List.all_eq_true.1 named)

/-- What ends a line thins out to its layout. -/
theorem thins_line (laid : Laid i.fragment.tokens) (named : i.newNames.all isIdentifier = true) :
    Thins .start (i.text.toList ++ ['\n']) (spell true i.renamed.layout ++ ['\n']) .start := by
  have thins := (i.laid laid named).thins_line
  rwa [← Fragment.toList_text] at thins

/-- What ends in a word thins out to its layout wherever it stands. -/
theorem thins_words (laid : Laid i.fragment.tokens) (named : i.newNames.all isIdentifier = true)
    (ends : i.fragment.endsInWord = true) :
    Thins .start i.text.toList (spell true i.renamed.layout) (Mode.start.run i.text.toList) := by
  rw [← Fragment.endsInWord_rename _ i.names.get?] at ends
  have last : ∀ t ∈ i.renamed.tokens.getLast?, t.isTrivia = false := fun t mem => by
    have found : i.renamed.tokens.getLast? = some t := mem
    have word : (i.renamed.tokens.getLast?.all (!·.isTrivia)) = true := ends
    rw [found, Option.all_some] at word
    simpa using word
  obtain ⟨n, thins⟩ := ((i.laid laid named).thins_words last).1
  rw [← Fragment.toList_text] at thins
  exact thins.run.1 ▸ thins

end Inlined

/-- A line that settles, and a line with other fragments alike in it, thin out to one line. -/
theorem exists_thin {line other : List Part} (alike : List.Forall₂ Part.Alike line other) {m : Mode}
    (ends : endsInWords line = true) (settles : settlesFrom m other = true) :
    ∃ thin, Thins m (spelled line ++ ['\n']) (thin ++ ['\n']) .start
      ∧ Thins m (spelled other ++ ['\n']) (thin ++ ['\n']) .start := by
  induction alike generalizing m with
  | nil =>
      have ended : m.step '\n' = .start := eq_of_beq settles
      exact ⟨[], .char '\n' (ended ▸ .nil _), .char '\n' (ended ▸ .nil _)⟩
  | @cons part other line others part' rest ih =>
      cases part' with
      | own text =>
          obtain ⟨thin, first, second⟩ := ih ends settles
          refine ⟨text.toList ++ thin, ?_, ?_⟩
          · simpa using (Thins.refl m text.toList).append first
          · simpa using (Thins.refl m text.toList).append second
      | @taken f g names alike =>
          simp only [settlesFrom, endsInWords, Bool.and_eq_true, Bool.or_eq_true, beq_iff_eq]
            at settles ends
          obtain ⟨⟨rfl, named'⟩, settles⟩ := settles
          have layout : (Inlined.mk f names).renamed.layout = (Inlined.mk g names).renamed.layout :=
            alike.layout_rename names.get?
          have named : (Inlined.mk f names).newNames.all isIdentifier = true := by
            rwa [Inlined.newNames,
              Fragment.answer_of_layout Fragment.variableNames_core alike.layout]
          cases rest with
          | nil =>
              have first := Inlined.thins_line alike.first named
              have second := Inlined.thins_line alike.second named'
              rw [layout] at first
              exact ⟨_, by simpa using first, by simpa using second⟩
          | cons part rest =>
              have word : f.endsInWord = true := by simpa using ends.1
              have first := Inlined.thins_words alike.first named word
              have second := Inlined.thins_words alike.second named' (alike.ends word)
              rw [layout] at first
              have modes := first.run.2.symm.trans second.run.2
              rw [modes] at first
              obtain ⟨thin, first', second'⟩ := ih ends.2 settles
              exact ⟨_ ++ thin, by simpa using first.append first',
                by simpa using second.append second'⟩

/-- The text of lines, a line break behind each of them. -/
def endedLines (lines : List (List Part)) : List Char :=
  lines.flatMap fun line => spelled line ++ ['\n']

theorem exists_thin_lines {lines others : List (List Part)}
    (alike : List.Forall₂ (List.Forall₂ Part.Alike) lines others)
    (ends : lines.all endsInWords = true) (settles : others.all (settlesFrom .start) = true) :
    ∃ thin, Thins .start (endedLines lines) thin .start
      ∧ Thins .start (endedLines others) thin .start := by
  induction alike with
  | nil => exact ⟨[], .nil _, .nil _⟩
  | cons line _ ih =>
      rw [List.all_cons, Bool.and_eq_true] at ends settles
      obtain ⟨thin, first, second⟩ := exists_thin line ends.1 settles.1
      obtain ⟨more, first', second'⟩ := ih ends.2 settles.2
      exact ⟨_, first.append first', second.append second'⟩

/-- The line break behind the last line adds nothing. -/
theorem read_endedLines {lines : List (List Part)}
    (leads : Mode.start.run (endedLines lines) = .start) :
    read true (['\n'].intercalate (lines.map spelled)) = read true (endedLines lines) := by
  have ended (line : List Part) (rest : List (List Part)) :
      ['\n'].intercalate ((line :: rest).map spelled) ++ ['\n'] = endedLines (line :: rest) := by
    induction rest generalizing line with
    | nil => simp [endedLines]
    | cons next rest ih =>
        rw [endedLines, List.flatMap_cons, ← endedLines, ← ih next]
        simp [List.intercalate]
  cases lines with
  | nil => rfl
  | cons line rest =>
      rw [← ended] at leads ⊢
      exact (read_line leads).symm

/-- Lines that settle have words, and lines alike have the same words. -/
theorem exists_read_lines {lines others : List (List Part)}
    (alike : List.Forall₂ (List.Forall₂ Part.Alike) lines others)
    (ends : lines.all endsInWords = true) (settles : others.all (settlesFrom .start) = true) :
    ∃ found, read true (['\n'].intercalate (lines.map spelled)) = some found
      ∧ read true (['\n'].intercalate (others.map spelled)) = some found := by
  obtain ⟨thin, first, second⟩ := exists_thin_lines alike ends settles
  obtain ⟨found, read⟩ := exists_read (congrArg Mode.isOpen first.run.2)
  refine ⟨found, ?_, ?_⟩
  · rw [read_endedLines first.run.1, first.read_eq, read]
  · rw [read_endedLines second.run.1, second.read_eq, read]

end GraphBridge.Statement

namespace GraphBridge.Compile

open Query Statement

namespace Plan

/-- The parts of the lines of a plan. -/
def lineParts : Plan → List (List Part)
  | .traversal script _ => [[.own script]]
  | .verbatim fragment => [[.taken fragment]]
  | .projecting b => b.lineParts
  | .returning b expression => b.clauses.map Clause.parts ++ [.own "RETURN " :: expression.parts]

/-- The text of a plan is its lines with line breaks between them. -/
theorem toList_text (plan : Plan) :
    plan.compiled.text.toList = ['\n'].intercalate (plan.lineParts.map spelled) := by
  have line : "\n".toList = ['\n'] := by decide +kernel
  cases plan with
  | traversal script aliases? => simp [compiled, lineParts]
  | verbatim fragment => simp [compiled, Compiled.declarative, lineParts]
  | projecting b =>
      show ("\n".intercalate b.lines).toList = _
      rw [String.toList_intercalate, line, b.map_toList_lines]
      rfl
  | returning b expression =>
      show (b.textReturning expression).toList = _
      simp only [Builder.textReturning, String.toList_intercalate, line, lineParts, List.map_append,
        Clause.map_toList_text, List.map_singleton, String.toList_append, spelled_own,
        Expression.toList_text]

end Plan

end GraphBridge.Compile
