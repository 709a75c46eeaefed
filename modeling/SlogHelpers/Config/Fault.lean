import SlogHelpers.Severity
import SlogHelpers.Text.Quoted

/-!
Why a configuration made of options and entries names no vocabulary.
-/
namespace SlogHelpers

inductive EntryKind where
  | level
  | attr
  | const
  deriving DecidableEq, Repr

/-- The kind in messages, which is also the long option that adds such an entry. -/
def EntryKind.word : EntryKind → String
  | .level => "level"
  | .attr => "attr"
  | .const => "const"

inductive ConfigFault where
  /-- The value of an option is not two parts around a single colon. -/
  | malformedPair (kind : EntryKind) (value : String)
  | invalidSeverity (text : String) (cause : Severity.Fault)
  /-- The logger asks for an argument style that there is not. -/
  | invalidApi (name : String)
  /-- A name is empty or not a single word. -/
  | invalidName (kind : EntryKind) (name : String)
  deriving DecidableEq, Repr

def ConfigFault.message : ConfigFault → String
  | .malformedPair kind value => String.join ["--", kind.word, "=", value, ": invalid value"]
  | .invalidSeverity text cause =>
    String.join ["parsing severity ", Text.quoted text, ": ", cause.message]
  | .invalidApi name => String.join [Text.quoted name, ": invalid logger.api value"]
  | .invalidName kind name =>
    String.join [kind.word, " name ", Text.quoted name,
      ": must be a non-empty token without whitespace or ':'"]

end SlogHelpers
