import GraphBridge.Error
import GraphBridge.Schema.Document

/-!
# Definitions of a schema text

A schema text is a list of definitions: of the schema itself, of types and their extensions, and of
directives. The document made of them holds the types in the order of their definitions, and each
extension is merged into the first type of its name, wherever the extension stands.
-/

namespace GraphBridge.Schema

/-- A definition as written. -/
inductive Definition where
  /-- The roots of the schema: pairs of an operation kind and a type name. -/
  | schema (isExtension : Bool) (directives : List Directive) (roots : List (String × String))
  /-- A type or an extension of one, with the constants written where the document keeps none: on
  values of enumerations and as defaults of input fields. -/
  | type (isExtension : Bool) (definition : TypeDefinition) (constants : List Json)
  /-- A directive, of which only the arguments matter. -/
  | directive (arguments : List ArgumentDefinition)
  deriving Repr

namespace Definition

/-- The first operation kind that occurs twice. -/
def repeatedRoot? : List String → List String → Option String
  | _, [] => none
  | seen, root :: rest =>
      if seen.contains root then some root else repeatedRoot? (root :: seen) rest

/-- What is wrong with a definition, if anything is. -/
def fault? : Definition → Option ParseError
  | .schema isExtension directives roots =>
      if !directives.all Directive.isFinite then some .schemaText
      else match repeatedRoot? [] (roots.map Prod.fst) with
        | some root => some (.repeatedRoot root)
        | none =>
            if isExtension || roots.any (fun root => root.1 == "query") then none
            else some .noQueryRoot
  | .type _ definition constants =>
      if definition.isFinite && constants.all Json.isFinite then none else some .schemaText
  | .directive arguments =>
      if arguments.all ArgumentDefinition.isFinite then none else some .schemaText

/-- The type that a definition defines. -/
def baseType? : Definition → Option TypeDefinition
  | .type false definition _ => some definition.tidy
  | _ => none

/-- The type that a definition extends, with what it adds. -/
def extension? : Definition → Option TypeDefinition
  | .type true definition _ => some definition.tidy
  | _ => none

end Definition

namespace TypeDefinition

/-- A type with the fields and directives of an extension behind its own. -/
def extend (base extension : TypeDefinition) : TypeDefinition :=
  { base with
    fields := base.fields ++ extension.fields
    directives := base.directives ++ extension.directives }

end TypeDefinition

/-- Merges an extension into the first type of its name. -/
def mergeExtension (extension : TypeDefinition) :
    List TypeDefinition → Except ParseError (List TypeDefinition)
  | [] => .error (.undefinedExtension extension.name)
  | base :: rest =>
      if base.name == extension.name then .ok (base.extend extension :: rest)
      else (mergeExtension extension rest).map (base :: ·)

/-- Merges extensions one after the other. -/
def mergeExtensions (types : List TypeDefinition) :
    List TypeDefinition → Except ParseError (List TypeDefinition)
  | [] => .ok types
  | extension :: rest =>
      match mergeExtension extension types with
      | .ok merged => mergeExtensions merged rest
      | .error e => .error e

namespace Document

/-- The document of a list of definitions, or the first thing that is wrong with them. -/
def ofDefinitions (definitions : List Definition) : Except ParseError Document :=
  match definitions.findSome? Definition.fault? with
  | some fault => .error fault
  | none =>
      (mergeExtensions (definitions.filterMap Definition.baseType?)
        (definitions.filterMap Definition.extension?)).map Document.mk

end Document

end GraphBridge.Schema
