import SlogHelpers.Command.Arguments
import SlogHelpers.Command.Help
import SlogHelpers.Command.Host
import SlogHelpers.Generate
import SlogHelpers.Vocabulary.Dump

/-!
The command: it reads the document, makes the source, and prints it or writes it to its file.
Nothing is written before the source is complete, and the file is written beside its place and then
moved there.
-/
namespace SlogHelpers.Command

inductive CommandFault where
  | unknownExtension (fault : UnknownExtension)
  | file (path : String) (fault : FileFault)
  | generate (fault : Fault)
  | format (fault : FormatFault)
  deriving DecidableEq

def CommandFault.message : CommandFault → String
  | .unknownExtension fault => fault.message
  | .file path fault => path ++ ": " ++ fault.message
  | .generate fault => fault.message
  | .format fault => fault.message

def joinPath (folder name : String) : String :=
  if folder.isEmpty || folder.toList.getLast? = some '/' then folder ++ name
  else folder ++ "/" ++ name

/-- The paths of all folders on the way to a path and of the path itself, the longest first, each as
it is written there. A step that goes nowhere is no folder, but for a dot at the front. -/
def pathsToward (path : String) : List String :=
  let steps := (path.toList.splitOn '/').map String.ofList
  steps.zipIdx.reverse.filterMap fun (step, n) =>
    if step = "" ∨ (step = "." ∧ n ≠ 0) then none
    else some (String.intercalate "/" (steps.take (n + 1)))

def textOf (name : String) (bytes : ByteArray) : Except CommandFault String :=
  (Text.Utf8.decode bytes).mapError fun _ => .file name .notText

/-- The syntax of the document at a path: the one that was asked for, or else the one that the path
tells. -/
def writtenAs (path : String) : Option DocumentSyntax → Except CommandFault DocumentSyntax
  | some written => .ok written
  | none => (DocumentSyntax.ofPath path).mapError .unknownExtension

/-- What the command prints: the lines of a text without the empty ones at its end. -/
def printedLines (text : String) : String :=
  String.ofList (Text.dropTrailing (· == '\n') text.toList) ++ "\n"

section Steps

variable {m : Type → Type} [Monad m] (host : Host m)

/-- The document at a path, where a dash stands for the input. -/
def loadDocument (path : String) (format : Option DocumentSyntax) :
    ExceptT CommandFault m WrittenDocument := do
  if path = "-" then do
    let bytes ← host.input
    let text ← liftExcept (textOf "<stdin>" bytes)
    pure ⟨format.getD .json, text⟩
  else do
    let written ← liftExcept (writtenAs path format)
    let found ← host.readFile path
    let bytes ← liftExcept (found.mapError (.file path))
    let text ← liftExcept (textOf path bytes)
    pure ⟨written, text⟩
where
  liftExcept {α : Type} (result : Except CommandFault α) : ExceptT CommandFault m α :=
    ExceptT.mk (pure result)

def givenDocument (a : Arguments) : ExceptT CommandFault m (Option WrittenDocument) :=
  match a.config with
  | none => pure none
  | some path => do
    let document ← loadDocument host path a.format
    pure (some document)

/-- Makes a folder, or finds it there. -/
def ensureFolder (path : String) : m (Except FileFault Unit) := do
  match ← host.makeFolder path with
  | .error .alreadyThere => do
    if ← host.isFolder path then pure (.ok ()) else pure (.error .alreadyThere)
  | result => pure result

def ensureFolders : List String → m (Except FileFault Unit)
  | [] => pure (.ok ())
  | path :: outer => do
    match ← ensureFolder host path with
    | .error .notFound => do
      match ← ensureFolders outer with
      | .ok () => ensureFolder host path
      | .error fault => pure (.error fault)
    | result => pure result

/-- Writes a file beside its place and moves it there; if either fails nothing is left beside it. -/
def replaceFile (path : String) (content : ByteArray) : m (Except FileFault Unit) := do
  let beside := path ++ ".tmp"
  match ← host.writeFile beside content with
  | .error fault => do
    host.removeFile beside
    pure (.error fault)
  | .ok () =>
    match ← host.rename beside path with
    | .error fault => do
      host.removeFile beside
      pure (.error fault)
    | .ok () => pure (.ok ())

def save (base package source : String) : m (Except CommandFault Unit) := do
  let folder := joinPath base package
  let path := joinPath folder (package ++ ".go")
  match ← ensureFolders host (pathsToward folder) with
  | .error fault => pure (.error (.file folder fault))
  | .ok () => do
    let result ← replaceFile host path source.toUTF8
    pure (result.mapError (.file path))

def formatted (a : Arguments) (source : String) : m (Except CommandFault String) :=
  if a.gofmt then do
    let run ← host.runFormatter "gofmt" source
    pure ((run.text "gofmt").mapError .format)
  else pure (.ok source)

/-- Does what the arguments ask for, and gives what is printed. -/
def run (a : Arguments) : ExceptT CommandFault m String := do
  let document ← givenDocument host a
  let v ← ExceptT.mk (pure ((load document a.options).mapError .generate))
  if a.dumpModel then pure (v.dump ++ "\n")
  else do
    let source ← ExceptT.mk (pure ((emitFile v).mapError .generate))
    let source ← ExceptT.mk (formatted host a source)
    if a.stdout then pure (printedLines source)
    else do
      ExceptT.mk (save host a.baseDirectory v.package source)
      pure ""

end Steps

inductive Outcome where
  | done (output : String)
  | misused (fault : UsageFault)
  | failed (fault : CommandFault)
  deriving DecidableEq

namespace Outcome

/-- The number that tells other programs how the command ended. -/
def exit : Outcome → Nat
  | .done _ => 0
  | .failed _ => 1
  | .misused _ => 2

def output : Outcome → String
  | .done output => output
  | _ => ""

def errors : Outcome → String
  | .done _ => ""
  | .misused fault => "error: " ++ fault.message ++ "\n"
  | .failed fault => "error: " ++ fault.message ++ "\n"

end Outcome

def start {m : Type → Type} [Monad m] (host : Host m) (words : List String) : m Outcome :=
  match Arguments.read words with
  | .error .help => pure (.done helpText)
  | .error .version => pure (.done versionText)
  | .error (.fault fault) => pure (.misused fault)
  | .ok a => do
    match ← (run host a).run with
    | .ok output => pure (.done output)
    | .error fault => pure (.failed fault)

end SlogHelpers.Command
