import SlogHelpers.Document.Fault
import SlogHelpers.Document.Field
import SlogHelpers.Json.Reader

/-!
Documents from JSON texts. A text is walked over in its own order, so of a value in the wrong place
and a text that goes wrong later on the value is the fault, and the other way round.
-/
namespace SlogHelpers.Document.OfJson

inductive Fault where
  /-- A value is not what its place calls for. -/
  | shape (fault : Json.ShapeFault)
  | broken
  deriving DecidableEq

def found? : Json → Option Json.Found
  | .null => some .null
  | .bool value => some (.boolean value)
  | .number value => some (.number value)
  | .string value => some (.string value)
  | .array _ _ => some .sequence
  | .object _ _ => some .map
  | .broken => none

def mismatch (json : Json) (expected : Json.Expected) : Fault :=
  match found? json with
  | some found => .shape (.invalidType found expected)
  | none => .broken

/-- The answer, if the text goes on to the end of what it was read from. -/
def ifClosed {α : Type} (closed : Bool) (answer : α) : Except Fault α :=
  if closed then .ok answer else .error .broken

def string : Json → Except Fault String
  | .string value => .ok value
  | json => .error (mismatch json .string)

def optionalString : Json → Except Fault (Option String)
  | .null => .ok none
  | json => (string json).map some

def boolean : Json → Except Fault Bool
  | .bool value => .ok value
  | json => .error (mismatch json .boolean)

def severity : Json → Except Fault Severity
  | .number (.integer value) =>
    match Severity.ofInt? value with
    | some severity => .ok severity
    | none => .error (.shape (.invalidValue value .severity))
  | json => .error (mismatch json .severity)

def list {α : Type} (item : Json → Except Fault α) : Json → Except Fault (List α)
  | .array items closed => do
    let values ← items.mapM item
    ifClosed closed values
  | json => .error (mismatch json .sequence)

def entry {α : Type} (value : Json → Except Fault α) : Json → Except Fault (Entry α)
  | .object members closed => do
    let pairs ← members.mapM fun (key, json) => do
      let v ← value json
      pure (key, v)
    ifClosed closed (Entry.ofList pairs)
  | json => .error (mismatch json .map)

/-- A record, from an object with its fields by name or from an array with its fields in their
order. -/
def record {φ ρ : Type} [DecidableEq φ] (reader : RecordReader φ ρ Json Fault) (fields : List φ)
    (start : ρ) (expected : Json.Expected) : Json → Except Fault ρ
  | .object members closed => do
    let record ← reader.readNamed [] start members
    ifClosed closed record
  | .array items closed => do
    let (record, rest) ← reader.readListed start fields items
    ifClosed (closed && rest.isEmpty) record
  | json => .error (mismatch json expected)

def loggerReader : RecordReader LoggerField LoggerSettings Json Fault where
  field? := LoggerField.ofName?
  set
    | .api, json, settings => do
      let api ← optionalString json
      pure { settings with api }
    | .ctx, json, settings => do
      let context ← boolean json
      pure { settings with context }
  unknown name := .shape (.unknownField name LoggerField.names)
  duplicate field := .shape (.duplicateField field.name)

/-- The block about the logger, or `null` for none. -/
def logger : Json → Except Fault (Option LoggerSettings)
  | .null => .ok none
  | json => (record loggerReader LoggerField.all {} .loggerBlock json).map some

def reader : RecordReader Field Document Json Fault where
  field? := Field.ofName?
  set
    | .pkg, json, document => do
      let pkg ← optionalString json
      pure { document with pkg }
    | .imports, json, document => do
      let imports ← list string json
      pure { document with imports }
    | .levels, json, document => do
      let levels ← list (entry severity) json
      pure { document with levels }
    | .consts, json, document => do
      let constants ← list string json
      pure { document with constants }
    | .attrs, json, document => do
      let attributes ← list (entry string) json
      pure { document with attributes }
    | .logger, json, document => do
      let logger ← logger json
      pure { document with logger }
  unknown name := .shape (.unknownField name Field.names)
  duplicate field := .shape (.duplicateField field.name)

def document (json : Json) : Except Fault Document :=
  record reader Field.all {} .document json

def read (text : String) : Except Fault Document := do
  let (json, complete) := Json.read text.toList
  let result ← document json
  ifClosed complete result

end SlogHelpers.Document.OfJson
