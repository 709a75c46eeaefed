import SlogHelpers.Text.Blank
import SlogHelpers.Text.Letter

/-!
Identifiers and import paths of Go.
-/
namespace SlogHelpers.Source

def keywords : List String := [
  "break", "case", "chan", "const", "continue", "default", "defer", "else", "fallthrough", "for",
  "func", "go", "goto", "if", "import", "interface", "map", "package", "range", "return", "select",
  "struct", "switch", "type", "var"]

def isKeyword (word : String) : Bool := keywords.contains word

/-- A letter, then letters and digits, and no keyword. -/
def isIdentifierChars : List Char → Bool
  | [] => false
  | c :: rest =>
    Text.isLetter c && rest.all Text.isNameChar && !isKeyword (String.ofList (c :: rest))

def isIdentifier (word : String) : Bool := isIdentifierChars word.toList

/-- Whether a file may belong to the package; the blank identifier names none. -/
def isPackageName (name : String) : Bool := isIdentifier name && name != "_"

/-- Characters that Go keeps out of import paths. -/
def reservedInPaths : List Char :=
  ['!', '"', '#', '$', '%', '&', '\'', '(', ')', '*', ',', ':', ';', '<', '=', '>', '?', '[',
    '\\', ']', '^', '\x60', '\x7b', '|', '\x7d']

def isPathChar (c : Char) : Bool :=
  !Text.isBlank c && !Text.isControl c && !reservedInPaths.contains c && c != '\ufffd'

def isImportPath (path : String) : Bool :=
  !path.isEmpty && path.toList.all isPathChar

end SlogHelpers.Source
