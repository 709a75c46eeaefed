import SlogHelpers.Config.Fault

/-!
Options as a user types them, and the pairs that level and attribute options stand for.
-/
namespace SlogHelpers

/-- A set of options. Pairs are kept as typed, so that a bad one is met only where they are used. -/
structure Options where
  pkg : Option String := none
  imports : List String := []
  /-- Each `name:severity`. -/
  levels : List String := []
  constants : List String := []
  /-- Each `key:type`. -/
  attributes : List String := []
  logger : Bool := false
  api : Option String := none
  context : Bool := false
  deriving DecidableEq, Inhabited

/-- The parts of a text around its colon; none unless it has exactly one. -/
def splitPair (value : String) : Option (String × String) :=
  match value.toList.span (· ≠ ':') with
  | (_, []) => none
  | (key, _ :: rest) =>
    if ':' ∈ rest then none else some (String.ofList key, String.ofList rest)

namespace Options

def readLevel (value : String) : Except ConfigFault (String × Severity) :=
  match splitPair value with
  | none => .error (.malformedPair .level value)
  | some (name, text) =>
    match Severity.read text with
    | .ok severity => .ok (name, severity)
    | .error cause => .error (.invalidSeverity text cause)

def readAttribute (value : String) : Except ConfigFault (String × String) :=
  match splitPair value with
  | none => .error (.malformedPair .attr value)
  | some pair => .ok pair

end Options
end SlogHelpers
