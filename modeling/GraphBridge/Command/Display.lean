import GraphBridge.Command.Request
import GraphBridge.Compile.Compiler
import GraphBridge.Json.Printer
import GraphBridge.Text.Grid

/-!
# Showing results

Results are shown as JSON over several lines or as grids.
-/

namespace GraphBridge

open Compile Schema Text

/-- JSON over several lines, the last line ended. -/
def Json.document (value : Json) : String :=
  value.pretty 0 ++ "\n"

namespace Compile.Compiled

/-- The statement as an object; aliases are left out if there are none. -/
def toJson (c : Compiled) : Json :=
  .object
    ([("query", .string c.text), ("language", .string c.language.name),
      ("parameters", .object c.parameters)]
      ++ (c.aliases?.map fun aliases =>
        ("fieldsAlias", Json.object (aliases.map fun (key, name) => (key, .string name)))).toList)

/-- What there is to say of the statement as a whole. -/
def summaryGrid (c : Compiled) : Grid where
  header := ["Property", "Value"]
  rows := [["Language", c.language.name], ["Parameters", toString c.parameters.length]]

/-- The parameters and their values. -/
def parameterGrid (c : Compiled) : Grid where
  header := ["Parameter", "Value"]
  rows := c.parameters.map fun (name, value) => [name, value.compact]

/-- Stored keys and the fields that read them. -/
def aliasGrid (aliases : Table String) : Grid where
  header := ["Stored Key", "Field"]
  rows := aliases.map fun (key, name) => [key, name]

/-- The summary, the statement, its parameters if there are any and its aliases if it has them. -/
def sheet (c : Compiled) : String :=
  c.summaryGrid.render ++ "\n" ++ c.text ++ "\n\n"
    ++ (if c.parameters.isEmpty then "" else c.parameterGrid.render)
    ++ (match c.aliases? with
      | some aliases => (aliasGrid aliases).render
      | none => "")

end Compile.Compiled

namespace Command

/-- An object type with its label in the graph and its fields. -/
structure TypeListing where
  name : String
  label : String
  fields : List FieldDescriptor
  deriving Repr

/-- How a field maps onto the graph, in a few words. -/
def mappingText : FieldMapping → String
  | .plain => "property"
  | .identity => "@id"
  | .relationship edgeType direction => direction.word ++ " :" ++ edgeType
  | .overridden _ => "@graphQuery"

namespace TypeListing

/-- The type as an object. -/
def toJson (t : TypeListing) : Json :=
  .object [("name", .string t.name), ("alias", .string t.label),
    ("fields", .array (t.fields.map FieldDescriptor.toJson))]

/-- A field as a row. -/
def fieldRow (f : FieldDescriptor) : List String :=
  [f.name, if f.isArray then "[" ++ f.graphType ++ "]" else f.graphType, f.stored,
    mappingText f.mapping]

/-- The fields as a grid. -/
def fieldGrid (t : TypeListing) : Grid where
  header := ["Field", "Type", "Stored As", "Kind"]
  rows := t.fields.map fieldRow

/-- The type with its label, its fields and an empty line. -/
def sheet (t : TypeListing) : String :=
  t.name ++ " (label `" ++ t.label ++ "`)\n" ++ t.fieldGrid.render ++ "\n"

end TypeListing

/-- A compiled statement in a format. -/
def showCompiled : Format → Compiled → String
  | .json, c => c.toJson.document
  | .grid, c => c.sheet

/-- Types in a format. -/
def showTypes : Format → List TypeListing → String
  | .json, types => (Json.array (types.map TypeListing.toJson)).document
  | .grid, types => String.join (types.map TypeListing.sheet)

end Command

end GraphBridge
