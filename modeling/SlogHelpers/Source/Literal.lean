import SlogHelpers.Text.Blank
import SlogHelpers.Text.Quoted

/-!
Interpreted string literals of Go.
-/
namespace SlogHelpers.Source

/-- One character inside a literal: quotes, backslashes and controls are escaped. -/
def literalChar (c : Char) : List Char :=
  match c with
  | '"' => ['\\', '"']
  | '\\' => ['\\', '\\']
  | '\n' => ['\\', 'n']
  | '\x0d' => ['\\', 'r']
  | '\t' => ['\\', 't']
  | c => if Text.isControl c then '\\' :: 'u' :: (Text.hex 4 c.toNat).toList else [c]

def literal (s : String) : String :=
  String.ofList ('"' :: s.toList.flatMap literalChar ++ ['"'])

end SlogHelpers.Source
