import SlogHelpers.Document

/-!
The fields of a document by name, and how a list of named values turns into a record: every name has
to be one of a field, and no field may come twice.
-/
namespace SlogHelpers.Document

inductive Field where
  | pkg
  | imports
  | levels
  | consts
  | attrs
  | logger
  deriving DecidableEq, Repr

def Field.all : List Field := [.pkg, .imports, .levels, .consts, .attrs, .logger]

def Field.name : Field → String
  | .pkg => "pkg"
  | .imports => "imports"
  | .levels => "levels"
  | .consts => "consts"
  | .attrs => "attrs"
  | .logger => "logger"

/-- The names that a document may use. -/
def Field.names : List String := all.map name

def Field.ofName? (name : String) : Option Field := all.find? (·.name = name)

inductive LoggerField where
  | api
  | ctx
  deriving DecidableEq, Repr

def LoggerField.all : List LoggerField := [.api, .ctx]

def LoggerField.name : LoggerField → String
  | .api => "api"
  | .ctx => "ctx"

/-- The names that the block may use; the second field has two. -/
def LoggerField.names : List String := ["api", "context", "ctx"]

def LoggerField.ofName? : String → Option LoggerField
  | "api" => some .api
  | "context" => some .ctx
  | "ctx" => some .ctx
  | _ => none

section Record

variable {φ ρ ν ε : Type} [DecidableEq φ]

/-- How a record is made from named values. -/
structure RecordReader (φ ρ ν ε : Type) where
  field? : String → Option φ
  set : φ → ν → ρ → Except ε ρ
  unknown : String → ε
  duplicate : φ → ε

/-- Puts the values into the record in their order. A bad name is met before its value is looked
at. -/
def RecordReader.readNamed (reader : RecordReader φ ρ ν ε) (seen : List φ) (record : ρ) :
    List (String × ν) → Except ε ρ
  | [] => .ok record
  | (name, value) :: rest =>
    match reader.field? name with
    | none => .error (reader.unknown name)
    | some field =>
      if field ∈ seen then .error (reader.duplicate field)
      else do
        let record ← reader.set field value record
        reader.readNamed (field :: seen) record rest

/-- Puts the values into the fields of the record in their order, as far as there are values, and
gives the values for which there was no field. -/
def RecordReader.readListed (reader : RecordReader φ ρ ν ε) (record : ρ) :
    List φ → List ν → Except ε (ρ × List ν)
  | field :: fields, value :: values => do
    let record ← reader.set field value record
    reader.readListed record fields values
  | _, values => .ok (record, values)

end Record

end SlogHelpers.Document
