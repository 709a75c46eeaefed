import SlogHelpers.Text.Hex
import SlogHelpers.Text.Ranges
import SlogHelpers.Text.HiddenTable

/-!
Text as messages quote it: between double quotes, with every character that would leave no mark of
its own on the page written as an escape.
-/
namespace SlogHelpers.Text

/-- Whether a reader of the page sees the character as one of its own. -/
def isVisible (c : Char) : Bool :=
  !inRanges c.toNat extendingRanges && !inRanges c.toNat fillerRanges &&
    !inRanges c.toNat blankGlyphRanges

def quotedChar (c : Char) : String :=
  match c with
  | '\x00' => "\\0"
  | '\t' => "\\t"
  | '\n' => "\\n"
  | '\x0d' => "\\r"
  | '"' => "\\\""
  | '\\' => "\\\\"
  | c => if isVisible c then c.toString else "\\u\x7b" ++ hex 0 c.toNat ++ "\x7d"

/-- A text between double quotes, as messages show it. -/
def quoted (s : String) : String :=
  "\"" ++ String.join (s.toList.map quotedChar) ++ "\""

end SlogHelpers.Text
