import SlogHelpers.Document.Fault
import SlogHelpers.Document.Field
import SlogHelpers.Yaml.Value

/-!
Documents from YAML texts. Any scalar will do for a string, as it is written; only where a value may
be left out do plain words for nothing count. All faults are one.
-/
namespace SlogHelpers.Document.OfYaml

open Yaml (Value)

/-- How deep a document nests: fields, lists, entries and their values. -/
def depth : Nat := 4

def standardTag (name : String) : Yaml.Tag := .ofText (String.join ["tag:yaml.org,2002:", name])

def isNull (text : String) : Bool :=
  text == "null" || text == "Null" || text == "NULL" || text == "~"

def boolean? : String → Option Bool
  | "true" => some true
  | "True" => some true
  | "TRUE" => some true
  | "false" => some false
  | "False" => some false
  | "FALSE" => some false
  | _ => none

/-- The number without its sign. In decimal only zero itself begins with a zero. -/
def magnitude? : List Char → Option Nat
  | '0' :: 'x' :: digits => Text.digitsIn? 16 digits
  | '0' :: 'o' :: digits => Text.digitsIn? 8 digits
  | '0' :: 'b' :: digits => Text.digitsIn? 2 digits
  | '0' :: _ :: _ => none
  | digits => Text.digitsIn? 10 digits

def integer? (text : String) : Option Int :=
  match text.toList with
  | '-' :: rest => (magnitude? rest).map fun n => -(n : Int)
  | '+' :: rest => (magnitude? rest).map Int.ofNat
  | rest => (magnitude? rest).map Int.ofNat

/-- The text of a scalar that may mean more than its text: a plain one, or a block of lines with the
standard tag of that name. -/
def word? (tagName : String) : Value → Option String
  | .scalar _ .plain text => some text
  | .scalar tag .literal text => if tag = some (standardTag tagName) then some text else none
  | _ => none

def isBlank : Value → Bool
  | .scalar _ .plain "" => true
  | _ => false

def orFault {α : Type} : Option α → Except DocumentFault α
  | some answer => .ok answer
  | none => .error .yaml

def string : Value → Except DocumentFault String
  | .scalar _ _ text => .ok text
  | _ => .error .yaml

/-- Whether the value says that there is none. The tag for nothing has to be on a word for
nothing. -/
def isNone : Value → Except DocumentFault Bool
  | .scalar none .plain text => .ok (text.isEmpty || isNull text)
  | .scalar (some tag) .plain text =>
    if tag ≠ standardTag "null" then .ok false
    else if isNull text then .ok true
    else .error .yaml
  | _ => .ok false

def optional {α : Type} (read : Value → Except DocumentFault α) (value : Value) :
    Except DocumentFault (Option α) := do
  if ← isNone value then pure none
  else
    let found ← read value
    pure (some found)

def boolean (value : Value) : Except DocumentFault Bool :=
  orFault (word? "bool" value >>= boolean?)

def severity (value : Value) : Except DocumentFault Severity :=
  orFault (word? "int" value >>= integer? >>= Severity.ofInt?)

def list {α : Type} (item : Value → Except DocumentFault α) (value : Value) :
    Except DocumentFault (List α) :=
  match value with
  | .sequence items => items.mapM item
  | value => if isBlank value then .ok [] else .error .yaml

def members (value : Value) : Except DocumentFault (List (String × Value)) :=
  match value with
  | .mapping pairs => pairs.mapM fun (key, value) => do
    let key ← string key
    pure (key, value)
  | value => if isBlank value then .ok [] else .error .yaml

def entry {α : Type} (item : Value → Except DocumentFault α) (value : Value) :
    Except DocumentFault (Entry α) := do
  let named ← members value
  let pairs ← named.mapM fun (key, value) => do
    let value ← item value
    pure (key, value)
  pure (Entry.ofList pairs)

def loggerReader : RecordReader LoggerField LoggerSettings Value DocumentFault where
  field? := LoggerField.ofName?
  set
    | .api, value, settings => do
      let api ← optional string value
      pure { settings with api }
    | .ctx, value, settings => do
      let context ← boolean value
      pure { settings with context }
  unknown _ := .yaml
  duplicate _ := .yaml

def logger (value : Value) : Except DocumentFault LoggerSettings := do
  let named ← members value
  loggerReader.readNamed [] {} named

def reader : RecordReader Field Document Value DocumentFault where
  field? := Field.ofName?
  set
    | .pkg, value, document => do
      let pkg ← optional string value
      pure { document with pkg }
    | .imports, value, document => do
      let imports ← list string value
      pure { document with imports }
    | .levels, value, document => do
      let levels ← list (entry severity) value
      pure { document with levels }
    | .consts, value, document => do
      let constants ← list string value
      pure { document with constants }
    | .attrs, value, document => do
      let attributes ← list (entry string) value
      pure { document with attributes }
    | .logger, value, document => do
      let logger ← optional logger value
      pure { document with logger }
  unknown _ := .yaml
  duplicate _ := .yaml

def read (text : String) : Except DocumentFault Document := do
  let value ← orFault (Yaml.read depth text)
  let named ← members value
  reader.readNamed [] {} named

end SlogHelpers.Document.OfYaml
