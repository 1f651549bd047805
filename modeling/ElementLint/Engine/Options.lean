import ElementLint.Json.Order
import ElementLint.Rule.Basic

/-!
# Options of rules

A rule declares with its schema how many options it takes and, for an option that is an object, which
fields the object may have and of which type they are. `Options.check` goes through the options in order and
stops at the first that does not fit.
-/

namespace ElementLint

inductive OptionError where
  | tooMany (accepted given : Nat)
  | notObject
  | unknownName (name : Text)
  /-- The schema gives a field a type that there is not. -/
  | unsupportedType (type : Json)
  /-- The schema gives a field a list or an object as its type. -/
  | unusableType (type : Json)
  | wrongType (name expected found : Text)
  /-- The schema of an option or of a field is no object. -/
  | malformedSchema (entry : Json)
  /-- The schema of a rule is a value that has no entries. -/
  | noEntries (schema : Json)
  /-- The options are given by a value that holds none. -/
  | noLength (options : Json)
  /-- The schema lists the fields in a value in which nothing can be looked up. -/
  | unsearchable (listed : Json)
  /-- The schema lists a field, and says nothing of what it is. -/
  | unindexed (listed : Json)
deriving DecidableEq

/-- Whether an error is a refusal of the options, and no failure to make sense of the schema. -/
def OptionError.isRefusal : OptionError → Bool
  | .tooMany _ _ | .notObject | .unknownName _ | .unsupportedType _ | .wrongType _ _ _ => true
  | _ => false

inductive OptionType where
  | boolean
  | string
  | number
  | integer
deriving DecidableEq

namespace OptionType

def ofName? (name : Text) : Option OptionType :=
  if name = "boolean" then some .boolean
  else if name = "string" then some .string
  else if name = "number" then some .number
  else if name = "integer" then some .integer
  else none

/-- Whether a value is of a type. Truth values are no numbers. -/
def admits : OptionType → Json → Bool
  | .boolean, .bool _ => true
  | .string, .text _ => true
  | .number, .int _ => true
  | .number, .float _ => true
  | .integer, .int _ => true
  | _, _ => false

end OptionType

namespace Options

def checkValue (name : Text) (value schema : Json) : Except OptionError Unit :=
  match schema with
  | .object fields =>
    match Fields.get? fields "type" with
    | none | some .null => .ok ()
    | some (.text expected) =>
      match OptionType.ofName? expected with
      | none => .error (.unsupportedType (.text expected))
      | some type =>
        if type.admits value then .ok () else .error (.wrongType name expected value.typeName)
    | some type => .error (if type.isContainer then .unusableType type else .unsupportedType type)
  | other => .error (.malformedSchema other)

/-- The schema of a field among those that are listed, if the field is one of them. Only an object has
schemas for the fields that it lists. -/
def fieldSchema? (listed : Json) (name : Text) : Except OptionError (Option Json) :=
  match listed with
  | .object fields => .ok (Fields.get? fields name)
  | .list items =>
    if items.any (Json.alike (.text name)) then .error (.unindexed listed) else .ok none
  | .text t => if t.contains name then .error (.unindexed listed) else .ok none
  | _ => .error (.unsearchable listed)

def admitsOthers (schema : Json) : Bool :=
  match schema.get? "additionalProperties" with
  | some (.bool false) => false
  | _ => true

def checkField (schema : Json) (field : Text × Json) : Except OptionError Unit := do
  match ← fieldSchema? ((schema.get? "properties").getD (.object [])) field.1 with
  | some property => checkValue field.1 field.2 property
  | none => if admitsOthers schema then .ok () else .error (.unknownName field.1)

def isObjectSchema (schema : Json) : Bool :=
  match schema.get? "type" with
  | some (.text type) => type == Text.ofString "object"
  | _ => false

/-- Check one option; only an option that should be an object is looked at. -/
def checkOption (option schema : Json) : Except OptionError Unit :=
  match schema with
  | .object _ =>
    if isObjectSchema schema then
      match option with
      | .object fields => fields.forM (checkField schema)
      | _ => .error .notObject
    else .ok ()
  | entry => .error (.malformedSchema entry)

def checkAll (entries options : List Json) : Except OptionError Unit :=
  if entries.length < options.length then .error (.tooMany entries.length options.length)
  else (options.zip entries).forM fun (option, entry) => checkOption option entry

def check (rule : Rule) (options : Json) : Except OptionError Unit :=
  match rule.schemaEntries? with
  | none => .error (.noEntries rule.schema)
  | some entries =>
    match options.elements? with
    | none => .error (.noLength options)
    | some options => checkAll entries options

end Options

def OptionError.message (rule : Text) : OptionError → Text
  | .tooMany accepted given =>
    "Rule '" ++ rule ++ "' accepts " ++ Text.ofNat accepted ++ " option(s), got " ++
      Text.ofNat given ++ "."
  | .notObject => "Rule '" ++ rule ++ "' expects an object of options."
  | .unknownName name => "Rule '" ++ rule ++ "' has no option named '" ++ name ++ "'."
  | .unsupportedType type =>
    "Rule '" ++ rule ++ "' declares unsupported option type '" ++ type.shown ++ "'."
  | .unusableType type => "unhashable type: '" ++ type.typeName ++ "'"
  | .wrongType name expected found =>
    "Rule '" ++ rule ++ "': option '" ++ name ++ "' should be " ++ expected ++ ", got " ++
      found ++ "."
  | .malformedSchema entry => "'" ++ entry.typeName ++ "' object has no attribute 'get'"
  | .noEntries schema => "'" ++ schema.typeName ++ "' object is not iterable"
  | .noLength options => "object of type '" ++ options.typeName ++ "' has no len()"
  | .unsearchable listed => "argument of type '" ++ listed.typeName ++ "' is not iterable"
  | .unindexed (.text _) => "string indices must be integers, not 'str'"
  | .unindexed listed => listed.typeName ++ " indices must be integers or slices, not str"

end ElementLint
