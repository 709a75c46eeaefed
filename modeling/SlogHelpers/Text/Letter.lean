import SlogHelpers.Text.Ranges
import SlogHelpers.Text.LetterTable

/-!
Letters and decimal digits as Go's identifiers know them: by general category, over all of Unicode.
-/
namespace SlogHelpers.Text

/-- A letter of any script, or the underscore, which Go counts as one. -/
def isLetter (c : Char) : Bool :=
  c == '_' || inRanges c.toNat letterRanges

/-- A decimal digit of any script. -/
def isDecimalDigit (c : Char) : Bool :=
  inRanges c.toNat digitRanges

/-- What may stand in an identifier after its first character. -/
def isNameChar (c : Char) : Bool :=
  isLetter c || isDecimalDigit c

end SlogHelpers.Text
