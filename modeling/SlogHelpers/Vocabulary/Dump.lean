import SlogHelpers.Json.Printer
import SlogHelpers.Vocabulary

/-!
Vocabularies as JSON texts, for a user who wants to see what a configuration came to.
-/
namespace SlogHelpers

/-- Levels, by their severities in decimal, lowest first. -/
def levelsJson (levels : SortedMap Severity String) : Json :=
  .object (levels.toList.map fun (severity, name) => (severity.text, .string name)) true

def stringsJson (strings : SortedSet String) : Json :=
  .array (strings.toList.map .string) true

def LoggerPlan.toJson (plan : LoggerPlan) : Json :=
  .object [
    ("levels", levelsJson plan.levels),
    ("api", .string plan.style.name),
    ("context", .bool plan.context)] true

namespace Vocabulary

def toJson (v : Vocabulary) : Json :=
  .object [
    ("package", .string v.package),
    ("imports", stringsJson v.imports),
    ("levels", levelsJson v.levels),
    ("consts", stringsJson v.constants),
    ("attrs", .object (v.attributes.toList.map fun (key, type) => (key, .string type)) true),
    ("logger", (v.logger.map LoggerPlan.toJson).getD .null)] true

/-- The vocabulary as text, without a line break at its end. -/
def dump (v : Vocabulary) : String := v.toJson.pretty

end Vocabulary
end SlogHelpers
