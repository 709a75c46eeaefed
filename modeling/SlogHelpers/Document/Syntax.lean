import SlogHelpers.Text.Quoted

/-!
The syntaxes a document may be written in, and how a path tells which one it is.
-/
namespace SlogHelpers

inductive DocumentSyntax where
  | json
  | toml
  | yaml
  deriving DecidableEq, Repr, Inhabited

namespace DocumentSyntax

def name : DocumentSyntax → String
  | .json => "json"
  | .toml => "toml"
  | .yaml => "yaml"

/-- The syntax of that name, in any case of ASCII letters. -/
def ofName? (name : String) : Option DocumentSyntax :=
  match name.map Char.toLower with
  | "json" => some .json
  | "toml" => some .toml
  | "yaml" => some .yaml
  | "yml" => some .yaml
  | _ => none

end DocumentSyntax

/-- The components of a path, without the empty ones and the single dots. -/
def pathComponents (path : String) : List String :=
  ((path.toList.splitOn '/').map String.ofList).filter fun c => c != "" && c != "."

/-- The last component of a path, unless it leads up or nowhere. -/
def fileName? (path : String) : Option String :=
  match (pathComponents path).getLast? with
  | some ".." => none
  | last => last

/-- What follows the last dot of a file name; nothing if its only dot is its first character. -/
def fileExtension (name : String) : String :=
  match name.toList.reverse.span (· ≠ '.') with
  | (_, []) => ""
  | (_, [_]) => ""
  | (extension, _) => String.ofList extension.reverse

def pathExtension (path : String) : String :=
  ((fileName? path).map fileExtension).getD ""

structure UnknownExtension where
  extension : String
  deriving DecidableEq, Repr

def UnknownExtension.message (fault : UnknownExtension) : String :=
  String.join ["unsupported config format ", Text.quoted fault.extension,
    " (expected .json, .toml or .yaml)"]

def DocumentSyntax.ofPath (path : String) : Except UnknownExtension DocumentSyntax :=
  match ofName? (pathExtension path) with
  | some found => .ok found
  | none => .error ⟨pathExtension path⟩

end SlogHelpers
