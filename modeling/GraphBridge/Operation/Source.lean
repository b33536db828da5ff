import GraphBridge.Error
import GraphBridge.Grammar.Value
import GraphBridge.Operation.Document

/-!
# Operations as written

An executable document as it stands in its text, with variables and directives, and the operation
document it denotes for given values of the variables. A value that is not given is the default that
the operation declares, or else null; fragments are therefore resolved once for each operation.
-/

namespace GraphBridge.Operation.Source

/-- A selection as written. -/
inductive Selection where
  | field (given? : Option String) (name : String) (arguments : List (String × Value))
      (directives : List DirectiveUse) (selections : List Selection)
  | spread (fragment : String) (directives : List DirectiveUse)
  | inlined (condition? : Option String) (directives : List DirectiveUse)
      (selections : List Selection)
  deriving Repr

/-- A variable that an operation declares. -/
structure VariableDefinition where
  name : String
  directives : List DirectiveUse
  default? : Option Constant
  deriving Repr

/-- The operation types of the language; only the first two can be compiled. -/
inductive OperationType where
  | query
  | mutation
  | subscription
  deriving DecidableEq, Repr

/-- An operation as written. -/
structure OperationDefinition where
  type : OperationType
  name? : Option String
  declared : List VariableDefinition
  directives : List DirectiveUse
  selections : List Selection
  deriving Repr

/-- A fragment as written. -/
structure FragmentDefinition where
  name : String
  condition : String
  directives : List DirectiveUse
  selections : List Selection
  deriving Repr

/-- A definition of an executable document. -/
inductive Definition where
  | operation (definition : OperationDefinition)
  | fragment (definition : FragmentDefinition)
  deriving Repr

/-! ## What may be wrong -/

/-- A number out of range in directives. -/
def directivesFault? (directives : List DirectiveUse) : Option ParseError :=
  if directives.all DirectiveUse.isFinite then none else some .operationText

/-- A number out of range in arguments. -/
def argumentsFault? (arguments : List (String × Value)) : Option ParseError :=
  if Value.haveFinite arguments then none else some .operationText

mutual

/-- The first fault in a selection that may open the given number of further levels. A level is
counted before its selections are looked at. -/
def selectionFault? (levels : Nat) : Selection → Option ParseError
  | .field _ _ arguments directives selections =>
      match argumentsFault? arguments <|> directivesFault? directives with
      | some fault => some fault
      | none =>
          match selections with
          | [] => none
          | first :: rest =>
              match levels with
              | 0 => some .nestingLimit
              | levels + 1 =>
                  match selectionFault? levels first with
                  | some fault => some fault
                  | none => selectionsFault? levels rest
  | .spread _ directives => directivesFault? directives
  | .inlined _ directives selections =>
      match directivesFault? directives with
      | some fault => some fault
      | none =>
          match levels with
          | 0 => some .nestingLimit
          | levels + 1 => selectionsFault? levels selections

/-- The first fault in selections. -/
def selectionsFault? (levels : Nat) : List Selection → Option ParseError
  | [] => none
  | first :: rest =>
      match selectionFault? levels first with
      | some fault => some fault
      | none => selectionsFault? levels rest

end

/-- How many levels the selections of a definition may open. -/
def levelLimit : Nat := 64

namespace VariableDefinition

/-- A number out of range in a variable definition. -/
def fault? (v : VariableDefinition) : Option ParseError :=
  directivesFault? v.directives
    <|> (if v.default?.all Constant.isFinite then none else some .operationText)

end VariableDefinition

namespace Definition

/-- The first fault in a definition. -/
def fault? : Definition → Option ParseError
  | .operation o =>
      o.declared.findSome? VariableDefinition.fault?
        <|> directivesFault? o.directives
        <|> selectionsFault? levelLimit o.selections
  | .fragment f => directivesFault? f.directives <|> selectionsFault? levelLimit f.selections

/-- The operation that a definition defines. -/
def operation? : Definition → Option OperationDefinition
  | .operation o => some o
  | .fragment _ => none

/-- The fragment that a definition defines. -/
def fragment? : Definition → Option FragmentDefinition
  | .operation _ => none
  | .fragment f => some f

/-- The first clash of names, given the names of the operations and fragments before: an operation
without a name has to be alone, and no name may be used twice. -/
def clash? (operations : List (Option String)) (fragments : List String) :
    List Definition → Option ParseError
  | [] => none
  | .operation o :: rest =>
      match o.name? with
      | none =>
          if operations.isEmpty then clash? (none :: operations) fragments rest
          else some .severalOperations
      | some name =>
          if operations.contains none then some .severalOperations
          else if operations.contains (some name) then some (.repeatedOperation name)
          else clash? (some name :: operations) fragments rest
  | .fragment f :: rest =>
      if fragments.contains f.name then some (.repeatedFragment f.name)
      else clash? operations (f.name :: fragments) rest

end Definition

/-! ## What it denotes -/

/-- The condition of a directive: its first `if` argument, if that is a truth value. -/
def condition? (lookup : String → Json) (d : DirectiveUse) : Option Bool :=
  (d.arguments.find? fun entry => entry.1 == "if").bind fun entry =>
    (entry.2.resolve lookup).bool?

/-- Whether directives leave a selection in. -/
def isIncluded (lookup : String → Json) (directives : List DirectiveUse) : Bool :=
  directives.all fun d =>
    if d.name == "skip" then condition? lookup d != some true
    else if d.name == "include" then condition? lookup d != some false
    else true

mutual

/-- The selection that a written one denotes, none if it is excluded. -/
def resolveSelection (lookup : String → Json) : Selection → List Operation.Selection
  | .field given? name arguments directives selections =>
      if isIncluded lookup directives then
        [.field given? name (Table.ofList (Value.resolveMembers lookup arguments))
          (resolveSelections lookup selections)]
      else []
  | .spread fragment directives =>
      if isIncluded lookup directives then [.spread fragment] else []
  | .inlined condition? directives selections =>
      if isIncluded lookup directives then
        [.inlined condition? (resolveSelections lookup selections)]
      else []

/-- The selections that written ones denote. -/
def resolveSelections (lookup : String → Json) : List Selection → List Operation.Selection
  | [] => []
  | first :: rest => resolveSelection lookup first ++ resolveSelections lookup rest

end

namespace FragmentDefinition

/-- The fragment that a written one denotes. -/
def resolve (lookup : String → Json) (f : FragmentDefinition) : Operation.FragmentDefinition :=
  ⟨f.name, f.condition, resolveSelections lookup f.selections⟩

end FragmentDefinition

namespace OperationDefinition

/-- The defaults that an operation declares. -/
def defaults (o : OperationDefinition) : Table Json :=
  Table.ofList (o.declared.filterMap fun v =>
    v.default?.map fun constant => (v.name, constant.toJson))

/-- The value of a variable: the one given, else the default, else null. -/
def lookup (o : OperationDefinition) (values : Table Json) (name : String) : Json :=
  (values.get? name <|> o.defaults.get? name).getD .null

/-- The kind of an operation that can be compiled. -/
def kind : OperationDefinition → Except ParseError OperationKind
  | ⟨.query, _, _, _, _⟩ => .ok .query
  | ⟨.mutation, _, _, _, _⟩ => .ok .mutation
  | ⟨.subscription, _, _, _, _⟩ => .error .subscription

/-- Fragments in the order of their names. -/
def sortFragments (fragments : List Operation.FragmentDefinition) :
    List Operation.FragmentDefinition :=
  fragments.mergeSort fun f g => decide (f.name ≤ g.name)

/-- The operation that a written one denotes among the fragments of its document. -/
def resolve (o : OperationDefinition) (fragments : List FragmentDefinition)
    (values : Table Json) : Except ParseError Operation := do
  let kind ← o.kind
  let lookup := o.lookup values
  return {
    name? := o.name?
    kind := kind
    selections := resolveSelections lookup o.selections
    fragments := sortFragments (fragments.map (·.resolve lookup)) }

end OperationDefinition

/-- Whether an operation comes before another: none before a name, names in order. -/
def nameBefore : Option String → Option String → Bool
  | none, _ => true
  | some _, none => false
  | some a, some b => decide (a ≤ b)

/-- Operations in the order of their names. -/
def sortOperations (operations : List Operation) : List Operation :=
  operations.mergeSort fun a b => nameBefore a.name? b.name?

end GraphBridge.Operation.Source

namespace GraphBridge.Operation.Document

open Source

/-- The operation document of a list of definitions for given values of the variables, or the first
thing that is wrong: faults inside definitions come before clashes between them. -/
def ofDefinitions (definitions : List Definition) (values : Table Json) :
    Except ParseError Document :=
  match definitions.findSome? Definition.fault? with
  | some fault => .error fault
  | none =>
      match Definition.clash? [] [] definitions with
      | some clash => .error clash
      | none =>
          let operations := definitions.filterMap Definition.operation?
          let fragments := definitions.filterMap Definition.fragment?
          if operations.isEmpty then .error .noOperation
          else do
            let resolved ← operations.mapM (·.resolve fragments values)
            return ⟨sortOperations resolved⟩

end GraphBridge.Operation.Document
