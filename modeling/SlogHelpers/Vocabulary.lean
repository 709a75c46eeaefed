import SlogHelpers.SortedMap
import SlogHelpers.SortedSet
import SlogHelpers.Severity

/-!
A logging vocabulary, fully resolved: the levels, constants and attributes that one generated file
gives Go names to, and the logger type it wraps around them.
-/
namespace SlogHelpers

/-- What the methods of the generated logger take after the message. -/
inductive ArgumentStyle where
  /-- `args ...any`, added to the record as alternating keys and values. -/
  | any
  /-- `attrs ...slog.Attr`, added to the record as they are. -/
  | attr
  deriving DecidableEq, Repr, Inhabited

namespace ArgumentStyle

def name : ArgumentStyle → String
  | .any => "any"
  | .attr => "attr"

def ofName? : String → Option ArgumentStyle
  | "any" => some .any
  | "attr" => some .attr
  | _ => none

@[simp] theorem ofName?_name (style : ArgumentStyle) : ofName? style.name = some style := by
  cases style <;> rfl

end ArgumentStyle

structure LoggerPlan where
  /-- One method is generated for each level, by ascending severity. -/
  levels : SortedMap Severity String
  style : ArgumentStyle
  context : Bool
  deriving DecidableEq, Inhabited

/-- Everything one generated file is made from. -/
structure Vocabulary where
  package : String
  imports : SortedSet String
  /-- The name of the level at each severity. -/
  levels : SortedMap Severity String
  constants : SortedSet String
  /-- The Go type of each attribute key. -/
  attributes : SortedMap String String
  logger : Option LoggerPlan
  deriving DecidableEq, Inhabited

def conventionalLevels : List (Severity × String) :=
  [(⟨-4, by decide, by decide⟩, "debug"), (0, "info"), (4, "warn"), (8, "error")]

def Severity.isConventional (s : Severity) : Bool :=
  conventionalLevels.any (·.1 = s)

def LoggerPlan.conventional (style : ArgumentStyle) (context : Bool) : LoggerPlan :=
  { levels := .ofList conventionalLevels, style, context }

/-- Whether a level lies outside the conventional severities. Only then does the file need helpers
that read and write level names, since `log/slog` knows its own. -/
def Vocabulary.hasCustomLevels (v : Vocabulary) : Bool :=
  v.levels.keys.any (!·.isConventional)

end SlogHelpers
