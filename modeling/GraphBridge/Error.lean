import GraphBridge.Text.Distance

/-!
# What can go wrong

Every failure is a cause of the domain; the wording of each cause is given once, here.
-/

namespace GraphBridge

/-- The hint that follows a message about an unknown name. -/
def hintText : Option String → String
  | some name => ". " ++ Text.suggestion name
  | none => ""

/-- Text in single quotes. -/
def quotedName (name : String) : String :=
  "'" ++ name ++ "'"

/-- What is wrong with a directive. -/
inductive DirectiveFault where
  /-- A required argument is absent or not a string. -/
  | missingArgument (name : String)
  /-- The direction of a relationship is neither in nor out. -/
  | unknownDirection (word : String)
  /-- A field of object type says nothing about how it is reached. -/
  | unmappedObject
  deriving DecidableEq, Repr

/-- The wording of a direction that is not known. -/
def unknownDirectionText (word : String) : String :=
  "unknown relationship direction " ++ quotedName word

namespace DirectiveFault

/-- The wording of a fault. -/
def message : DirectiveFault → String
  | .missingArgument name => "missing " ++ quotedName name ++ " argument"
  | .unknownDirection word => unknownDirectionText word
  | .unmappedObject => "object-typed field needs @relationship or @graphQuery"

end DirectiveFault

/-- A look-up in a schema that failed. -/
inductive SchemaError where
  | fieldNotFound (typeName fieldName : String) (hint : Option String)
  | rootFieldNotFound (fieldName : String) (hint : Option String)
  | typeNotFound (typeName : String) (hint : Option String)
  | duplicateIdField (typeName first second : String)
  | invalidDirective (directive location : String) (fault : DirectiveFault)
  deriving DecidableEq, Repr

namespace SchemaError

/-- The wording of a failed look-up. -/
def message : SchemaError → String
  | .fieldNotFound typeName fieldName hint =>
      "field " ++ quotedName fieldName ++ " not found on type " ++ quotedName typeName
        ++ hintText hint
  | .rootFieldNotFound fieldName hint =>
      "root field " ++ quotedName fieldName ++ " not found on Query or Mutation" ++ hintText hint
  | .typeNotFound typeName hint =>
      "type " ++ quotedName typeName ++ " not found" ++ hintText hint
  | .duplicateIdField typeName first second =>
      "type " ++ quotedName typeName ++ " marks both " ++ quotedName first ++ " and "
        ++ quotedName second ++ " with @id"
  | .invalidDirective directive location fault =>
      "invalid @" ++ directive ++ " on " ++ location ++ ": " ++ fault.message

end SchemaError

/-- A quoted text without its closing quote. -/
structure Unterminated where
  /-- The quote that opens the text. -/
  quote : Char
  /-- The byte at which it stands. -/
  offset : Nat
  deriving DecidableEq, Repr

/-- What is wrong with the payload of a typed response value. -/
inductive PayloadFault where
  | notAnArray
  | oddEntries
  | notAString
  | noValue
  | notAnObject
  deriving DecidableEq, Repr

namespace PayloadFault

/-- The wording of a payload fault. -/
def message : PayloadFault → String
  | .notAnArray => "expected an array"
  | .oddEntries => "odd number of key/value entries"
  | .notAString => "expected a string"
  | .noValue => "missing value"
  | .notAnObject => "expected an object"

end PayloadFault

/-- The documents that are read from text. -/
inductive DocumentKind where
  | schema
  | operation
  | fragment
  | response
  deriving DecidableEq, Repr

namespace DocumentKind

/-- The word for a kind of document. -/
def word : DocumentKind → String
  | .schema => "schema"
  | .operation => "operation"
  | .fragment => "query fragment"
  | .response => "response"

end DocumentKind

/-- A document that could not be read. -/
inductive ParseError where
  /-- The schema text is outside the grammar or holds a number out of range. -/
  | schemaText
  /-- A schema definition names no query root. -/
  | noQueryRoot
  /-- A schema definition names a root twice. -/
  | repeatedRoot (operation : String)
  /-- An extension of a type that is not defined. -/
  | undefinedExtension (typeName : String)
  /-- The operation text is outside the grammar or holds a number out of range. -/
  | operationText
  /-- Selections are nested too deeply. -/
  | nestingLimit
  /-- An operation without a name beside another one. -/
  | severalOperations
  /-- Two operations of one name. -/
  | repeatedOperation (name : String)
  /-- Two fragments of one name. -/
  | repeatedFragment (name : String)
  /-- No operation at all. -/
  | noOperation
  /-- An operation that is neither a query nor a mutation. -/
  | subscription
  /-- A query fragment with an open quote. -/
  | openQuote (fault : Unterminated)
  /-- A typed response value with a payload of the wrong form. -/
  | payload (tag : String) (fault : PayloadFault)
  deriving DecidableEq, Repr

namespace ParseError

/-- The kind of document that could not be read. -/
def kind : ParseError → DocumentKind
  | .schemaText | .noQueryRoot | .repeatedRoot _ | .undefinedExtension _ => .schema
  | .operationText | .nestingLimit | .severalOperations | .repeatedOperation _
  | .repeatedFragment _ | .noOperation | .subscription => .operation
  | .openQuote _ => .fragment
  | .payload _ _ => .response

/-- The wording of the cause alone. -/
def reason : ParseError → String
  | .schemaText => "<syntax>"
  | .noQueryRoot => "schema definition is missing query root"
  | .repeatedRoot operation => "multiple " ++ operation ++ " roots in schema definition"
  | .undefinedExtension typeName => "cannot extend undefined type " ++ quotedName typeName
  | .operationText => "<syntax>"
  | .nestingLimit => "recursion limit exceeded."
  | .severalOperations => "document contains multiple operations"
  | .repeatedOperation name => "operation " ++ name ++ " is defined twice"
  | .repeatedFragment name => "fragment " ++ name ++ " is defined twice"
  | .noOperation => "document does not contain an operation"
  | .subscription => "subscriptions cannot be compiled to a graph query"
  | .openQuote fault =>
      "unterminated " ++ String.ofList [fault.quote] ++ " starting at offset "
        ++ toString fault.offset
  | .payload tag fault => tag ++ ": " ++ fault.message

/-- The full wording. -/
def message (e : ParseError) : String :=
  "failed to parse " ++ e.kind.word ++ ": " ++ e.reason

end ParseError

/-- What is wrong with a query fragment for the field that carries it. -/
inductive FragmentFault where
  /-- It does not fall into tokens. -/
  | openQuote (fault : Unterminated)
  /-- It returns nothing. -/
  | noReturn
  /-- It returns something other than one variable where a node is needed. -/
  | notAVariable (tail : String)
  /-- It neither returns anything nor mentions the node it stands for. -/
  | noReturnNorThis
  deriving DecidableEq, Repr

namespace FragmentFault

/-- The wording of a fault. -/
def message : FragmentFault → String
  | .openQuote fault => (ParseError.openQuote fault).message
  | .noReturn => "fragment has no top-level RETURN"
  | .notAVariable tail =>
      "an object field must return a single node variable, not " ++ quotedName tail
  | .noReturnNorThis => "fragment needs a top-level RETURN or a `this` node"

end FragmentFault

/-- An operation that could not be compiled. -/
inductive CompileError where
  | unsupportedMutation (fieldName : String)
  | missingArgument (fieldName argument : String)
  | unresolvedType (typeName : String)
  | emptySelection (operation : String)
  | unknownFragment (name : String)
  | invalidFragment (fieldName : String) (fault : FragmentFault)
  | depthExceeded (maxDepth : Nat)
  deriving DecidableEq, Repr

namespace CompileError

/-- The wording of a failed compilation. -/
def message : CompileError → String
  | .unsupportedMutation fieldName =>
      "mutation " ++ quotedName fieldName ++ " has an unsupported shape: "
        ++ "the name matches no mutation convention and the field has no @graphQuery"
  | .missingArgument fieldName argument =>
      "field " ++ quotedName fieldName ++ " is missing required argument " ++ quotedName argument
  | .unresolvedType typeName => "type of " ++ quotedName typeName ++ " could not be resolved"
  | .emptySelection operation => "operation " ++ quotedName operation ++ " selects no root field"
  | .unknownFragment name => "unknown fragment " ++ quotedName name
  | .invalidFragment fieldName fault =>
      "invalid query fragment on " ++ quotedName fieldName ++ ": " ++ fault.message
  | .depthExceeded maxDepth =>
      "selection depth exceeds the configured maximum of " ++ toString maxDepth

end CompileError

/-- What is wrong with the envelope of a response. -/
inductive EnvelopeFault where
  /-- Not a list; the word says what it is instead. -/
  | notAList (found : String)
  /-- A list in front of other elements. -/
  | severalElements (count : Nat)
  /-- No rows. -/
  | noResults
  deriving DecidableEq, Repr

namespace EnvelopeFault

/-- The wording of an envelope fault. -/
def message : EnvelopeFault → String
  | .notAList found => "expected a g:List, got " ++ found
  | .severalElements count =>
      "expected a single list, got " ++ toString count ++ " top-level elements"
  | .noResults => "openCypher response has no 'results' array"

end EnvelopeFault

/-- What is wrong with an element of a list result. -/
inductive ElementFault where
  /-- Not a map; its text is given. -/
  | notAMap (text : String)
  /-- A map with a key that is no scalar; the text of the key is given. -/
  | keyNotAString (key : String)
  deriving DecidableEq, Repr

namespace ElementFault

/-- The wording of an element fault. -/
def message : ElementFault → String
  | .notAMap text => "expected a map, got " ++ text
  | .keyNotAString key => "map key " ++ key ++ " is not a string"

end ElementFault

/-- A response that could not be reshaped. -/
inductive ReshapeError where
  | unexpectedEnvelope (fault : EnvelopeFault)
  | malformedElement (index : Nat) (fault : ElementFault)
  | invalidKey (key : String)
  deriving DecidableEq, Repr

namespace ReshapeError

/-- The wording of a failed reshaping. -/
def message : ReshapeError → String
  | .unexpectedEnvelope fault => "unexpected Gremlin response envelope: " ++ fault.message
  | .malformedElement index fault =>
      "malformed element at index " ++ toString index ++ ": " ++ fault.message
  | .invalidKey key => "invalid map key: " ++ key

end ReshapeError

/-- A configuration that cannot be used. -/
inductive ConfigError where
  | zeroMaxDepth
  | unknownPolicy (name : String)
  deriving DecidableEq, Repr

namespace ConfigError

/-- The wording of a configuration fault. -/
def message : ConfigError → String
  | .zeroMaxDepth => "max_depth must be greater than zero"
  | .unknownPolicy name =>
      "unknown reshape policy " ++ quotedName name ++ " (expected 'skip' or 'fail')"

end ConfigError

/-- Any failure of compiling, executing or reshaping. -/
inductive Error where
  | schema (cause : SchemaError)
  | compile (cause : CompileError)
  | reshape (cause : ReshapeError)
  | parse (cause : ParseError)
  /-- The database collaborator failed; its message is passed on. -/
  | execution (message : String)
  | config (cause : ConfigError)
  deriving DecidableEq, Repr

namespace Error

/-- The wording of a failure. -/
def message : Error → String
  | .schema cause => cause.message
  | .compile cause => cause.message
  | .reshape cause => cause.message
  | .parse cause => cause.message
  | .execution message => message
  | .config cause => "configuration error: " ++ cause.message

end Error

end GraphBridge
