import SlogHelpers.Document.Fault
import SlogHelpers.Document.Field
import SlogHelpers.SortedMap
import SlogHelpers.Toml.Reader

/-!
Documents from TOML texts. A table has its keys in ascending order, whatever their order in the
text. All faults are one.
-/
namespace SlogHelpers.Document.OfToml

/-- The key under which a date or a time counts as a table of one pair. -/
def momentKey : String := "$__toml_private_datetime"

def members : Toml → Except DocumentFault Toml.Entries
  | .table entries _ => .ok (SortedMap.ofList entries).toList
  | .moment text => .ok [(momentKey, .string text)]
  | _ => .error .toml

def items : Toml → Except DocumentFault (List Toml)
  | .array items => .ok items
  | .tables newestFirst => .ok (newestFirst.reverse.map (.table · .headed))
  | _ => .error .toml

def string : Toml → Except DocumentFault String
  | .string value => .ok value
  | _ => .error .toml

def boolean : Toml → Except DocumentFault Bool
  | .boolean value => .ok value
  | _ => .error .toml

def severity : Toml → Except DocumentFault Severity
  | .integer value =>
    match Severity.ofInt? value with
    | some severity => .ok severity
    | none => .error .toml
  | _ => .error .toml

def list {α : Type} (item : Toml → Except DocumentFault α) (value : Toml) :
    Except DocumentFault (List α) := do
  let found ← items value
  found.mapM item

def entry {α : Type} (item : Toml → Except DocumentFault α) (value : Toml) :
    Except DocumentFault (Entry α) := do
  let named ← members value
  let pairs ← named.mapM fun (key, value) => do
    let value ← item value
    pure (key, value)
  pure (Entry.ofList pairs)

def loggerReader : RecordReader LoggerField LoggerSettings Toml DocumentFault where
  field? := LoggerField.ofName?
  set
    | .api, value, settings => do
      let api ← string value
      pure { settings with api := some api }
    | .ctx, value, settings => do
      let context ← boolean value
      pure { settings with context }
  unknown _ := .toml
  duplicate _ := .toml

/-- The block about the logger: a table with its fields by name, or a list that begins with its
fields in their order. -/
def logger (value : Toml) : Except DocumentFault LoggerSettings :=
  match items value with
  | .ok found => do
    let (settings, _) ← loggerReader.readListed {} LoggerField.all found
    pure settings
  | .error _ => do
    let named ← members value
    loggerReader.readNamed [] {} named

def reader : RecordReader Field Document Toml DocumentFault where
  field? := Field.ofName?
  set
    | .pkg, value, document => do
      let pkg ← string value
      pure { document with pkg := some pkg }
    | .imports, value, document => do
      let imports ← list string value
      pure { document with imports }
    | .levels, value, document => do
      let levels ← list (entry severity) value
      pure { document with levels }
    | .consts, value, document => do
      let constants ← list string value
      pure { document with constants }
    | .attrs, value, document => do
      let attributes ← list (entry string) value
      pure { document with attributes }
    | .logger, value, document => do
      let settings ← logger value
      pure { document with logger := some settings }
  unknown _ := .toml
  duplicate _ := .toml

def read (text : String) : Except DocumentFault Document :=
  match Toml.read text with
  | some entries => do
    let named ← members (.table entries .headed)
    reader.readNamed [] {} named
  | none => .error .toml

end SlogHelpers.Document.OfToml
