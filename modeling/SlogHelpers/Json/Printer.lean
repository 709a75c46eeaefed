import SlogHelpers.Json
import SlogHelpers.Text.Quoted

/-!
JSON texts spread over lines, with two spaces of indentation for each list or object around a line.
-/
namespace SlogHelpers.Json

/-- One character of a string. Quotes, backslashes and the controls below the space are escaped,
with a letter where there is one. -/
def printedChar (c : Char) : List Char :=
  match c with
  | '"' => ['\\', '"']
  | '\\' => ['\\', '\\']
  | '\x08' => ['\\', 'b']
  | '\t' => ['\\', 't']
  | '\n' => ['\\', 'n']
  | '\x0c' => ['\\', 'f']
  | '\x0d' => ['\\', 'r']
  | c => if c.toNat < 0x20 then '\\' :: 'u' :: (Text.hex 4 c.toNat).toList else [c]

def printedString (s : String) : List Char := '"' :: s.toList.flatMap printedChar ++ ['"']

def Number.printed : Number → List Char
  | .integer value => (toString value).toList
  | .float negative magnitude => (if negative then ['-'] else []) ++ magnitude.text.toList

def newLine (depth : Nat) : List Char := '\n' :: List.replicate (2 * depth) ' '

/-- Parts between brackets, each on lines of its own. Without parts the brackets stand side by
side. -/
def enclosed (depth : Nat) (opening closing : Char) (parts : List (List Char)) : List Char :=
  if parts.isEmpty then [opening, closing]
  else
    opening :: List.intercalate [','] (parts.map (newLine (depth + 1) ++ ·)) ++ newLine depth ++
      [closing]

mutual

/-- A text as it stands inside `depth` lists and objects. -/
def printed (depth : Nat) : Json → List Char
  | .null => ['n', 'u', 'l', 'l']
  | .bool true => ['t', 'r', 'u', 'e']
  | .bool false => ['f', 'a', 'l', 's', 'e']
  | .number value => value.printed
  | .string value => printedString value
  | .array items _ => enclosed depth '[' ']' (printedItems (depth + 1) items)
  | .object members _ => enclosed depth '\x7b' '\x7d' (printedMembers (depth + 1) members)
  | .broken => []

def printedItems (depth : Nat) : List Json → List (List Char)
  | [] => []
  | item :: rest => printed depth item :: printedItems depth rest

def printedMembers (depth : Nat) : List (String × Json) → List (List Char)
  | [] => []
  | (key, value) :: rest =>
    (printedString key ++ ':' :: ' ' :: printed depth value) :: printedMembers depth rest

end

/-- The text over several lines, without a line break at its end. -/
def pretty (json : Json) : String := String.ofList (printed 0 json)

end SlogHelpers.Json
