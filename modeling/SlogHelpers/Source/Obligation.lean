import SlogHelpers.Name
import SlogHelpers.Source.Fault
import SlogHelpers.Source.TypeText
import SlogHelpers.Vocabulary

/-!
What a vocabulary has to fulfil for its file to be valid Go. Obligations are judged in the order of
the sections they belong to, each knowing what the ones before it have declared; the first that
fails is the fault of the file.
-/
namespace SlogHelpers.Source

inductive Declaration where
  | level (name : String)
  | const (name : String)
  | attr (key : String)
  | parseLevel
  | replaceAttr
  | logger
  deriving DecidableEq, Repr

namespace Declaration

def identifier : Declaration → String
  | .level name => Name.levelConstant name
  | .const name => Name.camelCase name
  | .attr key => Name.camelCase key
  | .parseLevel => "ParseLevel"
  | .replaceAttr => "ReplaceAttr"
  | .logger => "Logger"

/-- The name that the identifier is made from. -/
def name : Declaration → String
  | .level name => name
  | .const name => name
  | .attr key => key
  | declaration => declaration.identifier

def kind : Declaration → String
  | .level _ => "level"
  | .const _ => "const"
  | .attr _ => "attr"
  | .parseLevel => "helper"
  | .replaceAttr => "helper"
  | .logger => "logger"

end Declaration

/-- One thing that must hold for the file to be valid. -/
inductive Obligation where
  | package (name : String)
  | importPath (path : String)
  /-- The identifier is one, and no declaration before it has it. -/
  | declaration (declaration : Declaration)
  | attributeType (key type : String)
  /-- No level before has the same label. -/
  | label (name : String)
  /-- The method of the level has a valid name that no other member of the logger has. -/
  | method (name : String)
  deriving DecidableEq, Repr

/-- What the obligations judged so far have taken. -/
structure Scope where
  identifiers : List String := []
  /-- Each label with the name it is made from. -/
  labels : List (String × String) := []
  /-- The field and the methods of the logger. -/
  members : List String := ["Logger", "log"]
  deriving DecidableEq, Repr

/-- The scope after an obligation that holds in it. -/
def Obligation.judge (scope : Scope) : Obligation → Except Fault Scope
  | .package name => if isPackageName name then .ok scope else .error (.invalidPackage name)
  | .importPath path => if isImportPath path then .ok scope else .error (.invalidImport path)
  | .declaration d =>
    if !isIdentifier d.identifier then .error (.invalidIdentifier d.kind d.name d.identifier)
    else if d.identifier ∈ scope.identifiers then .error (.duplicateIdentifier d.identifier)
    else .ok { scope with identifiers := d.identifier :: scope.identifiers }
  | .attributeType key type => if isTypeText type then .ok scope else .error (.invalidType key type)
  | .label name =>
    match scope.labels.lookup (Text.upperText name) with
    | some earlier => .error (.duplicateLevelName earlier name)
    | none => .ok { scope with labels := (Text.upperText name, name) :: scope.labels }
  | .method name =>
    let member := Name.camelCase name
    if !isIdentifier member then .error (.invalidIdentifier "level" name member)
    else if member ∈ scope.members then .error (.duplicateIdentifier ("Logger." ++ member))
    else .ok { scope with members := member :: scope.members }

def helperObligations (v : Vocabulary) : List Obligation :=
  if v.hasCustomLevels then
    .declaration .parseLevel :: v.levels.values.map .label ++ [.declaration .replaceAttr]
  else []

def loggerObligations (v : Vocabulary) : List Obligation :=
  v.logger.elim [] fun plan => .declaration .logger :: plan.levels.values.map .method

/-- The obligations of a vocabulary, in the order of the sections. -/
def obligations (v : Vocabulary) : List Obligation :=
  .package v.package :: v.imports.toList.map .importPath ++
  v.levels.values.map (fun name => .declaration (.level name)) ++
  v.constants.toList.map (fun name => .declaration (.const name)) ++
  v.attributes.toList.flatMap
    (fun (key, type) => [.declaration (.attr key), .attributeType key type]) ++
  helperObligations v ++ loggerObligations v

def judgeAll (scope : Scope) (obligations : List Obligation) : Except Fault Scope :=
  obligations.foldlM Obligation.judge scope

end SlogHelpers.Source
