import SlogHelpers.Document.OfJson
import SlogHelpers.Document.OfToml
import SlogHelpers.Document.OfYaml
import SlogHelpers.Document.Syntax
import SlogHelpers.Text.Blank

/-!
Documents from texts of any syntax.
-/
namespace SlogHelpers

def Document.OfJson.Fault.toDocumentFault : Document.OfJson.Fault → DocumentFault
  | .shape fault => .jsonShape fault
  | .broken => .jsonSyntax

namespace Document

/-- The document that a text is in its syntax, with empty entries or without. -/
def readAs : DocumentSyntax → String → Except DocumentFault Document
  | .json, text => (OfJson.read text).mapError OfJson.Fault.toDocumentFault
  | .toml, text => OfToml.read text
  | .yaml, text => OfYaml.read text

def checked (document : Document) : Except DocumentFault Document :=
  match document.emptyEntry? with
  | some (kind, index) => .error (.emptyEntry kind index)
  | none => .ok document

/-- The document that a text is. A text of nothing but white space is the empty one in any syntax;
otherwise empty entries are looked for once the whole text has been read. -/
def read (written : DocumentSyntax) (text : String) : Except DocumentFault Document :=
  if Text.isBlankText text then .ok {}
  else readAs written text >>= checked

end Document
end SlogHelpers
