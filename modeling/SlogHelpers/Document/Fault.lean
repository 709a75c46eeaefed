import SlogHelpers.Config.Fault
import SlogHelpers.Json

/-!
Why a text is no document.
-/
namespace SlogHelpers

namespace Json

inductive Found where
  | null
  | boolean (value : Bool)
  | number (value : Number)
  | string (value : String)
  | sequence
  | map
  deriving DecidableEq

inductive Expected where
  | string
  | boolean
  | severity
  | sequence
  | map
  | document
  | loggerBlock
  deriving DecidableEq, Repr

/-- Why a well-formed JSON text is no document. -/
inductive ShapeFault where
  | unknownField (name : String) (names : List String)
  | duplicateField (name : String)
  | invalidType (found : Found) (expected : Expected)
  | invalidValue (value : Int) (expected : Expected)
  deriving DecidableEq

def Number.describe : Number → String
  | .integer value => String.join ["integer \x60", toString value, "\x60"]
  | .float negative magnitude =>
    String.join ["floating point \x60", if negative then "-" else "", magnitude.text, "\x60"]

def Found.describe : Found → String
  | .null => "null"
  | .boolean value => String.join ["boolean \x60", if value then "true" else "false", "\x60"]
  | .number value => value.describe
  | .string value => String.join ["string ", Text.quoted value]
  | .sequence => "sequence"
  | .map => "map"

def Expected.describe : Expected → String
  | .string => "a string"
  | .boolean => "a boolean"
  | .severity => "i64"
  | .sequence => "a sequence"
  | .map => "a map"
  | .document => "struct Document"
  | .loggerBlock => "struct LoggerBlock"

def ShapeFault.message : ShapeFault → String
  | .unknownField name names =>
    String.join ["unknown field \x60", name, "\x60, expected one of ",
      String.intercalate ", " (names.map fun n => String.join ["\x60", n, "\x60"])]
  | .duplicateField name => String.join ["duplicate field \x60", name, "\x60"]
  | .invalidType found expected =>
    String.join ["invalid type: ", found.describe, ", expected ", expected.describe]
  | .invalidValue value expected =>
    String.join
      ["invalid value: integer \x60", toString value, "\x60, expected ", expected.describe]

end Json

inductive DocumentFault where
  /-- An entry of the list names no pair. -/
  | emptyEntry (kind : EntryKind) (index : Nat)
  /-- The text is JSON as far as it was read, but not of the shape of a document. -/
  | jsonShape (fault : Json.ShapeFault)
  | jsonSyntax
  | toml
  | yaml
  deriving DecidableEq

def DocumentFault.cause : DocumentFault → String
  | .emptyEntry kind index =>
    String.join [kind.word, "s[", toString index,
      "]: empty entry, expected one \x60name: value\x60 pair"]
  | .jsonShape fault => fault.message
  | .jsonSyntax => "not well-formed JSON"
  | .toml => "not a TOML document of this shape"
  | .yaml => "not a YAML document of this shape"

def DocumentFault.message (fault : DocumentFault) : String :=
  String.join ["decoding config: ", fault.cause]

end SlogHelpers
