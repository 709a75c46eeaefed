import SlogHelpers.Source.Obligation
import SlogHelpers.Source.Section

/-!
The file of a vocabulary: its obligations are judged, then its sections are written.
-/
namespace SlogHelpers.Source

/-- The Go source file of a vocabulary, if it has a valid one. -/
def emit (v : Vocabulary) : Except Fault String := do
  let _ ← judgeAll {} (obligations v)
  pure (fileText (sections v))

end SlogHelpers.Source
