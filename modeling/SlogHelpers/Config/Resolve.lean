import SlogHelpers.Config
import SlogHelpers.Text.Blank
import SlogHelpers.Vocabulary

/-!
From a configuration to the vocabulary it names: the last entry at a severity or a key counts, names
are checked whether they count or not, and the imports that the sections of the file need are added.
-/
namespace SlogHelpers

def defaultPackage : String := "slogx"

/-- A name that options and generated code can carry: at least one character, no colon, no white
space. -/
def isWord (name : String) : Bool :=
  !name.isEmpty && name.toList.all fun c => c != ':' && !Text.isBlank c

def LoggerSettings.resolveStyle (settings : LoggerSettings) : Except ConfigFault ArgumentStyle :=
  match settings.api with
  | none => .ok .any
  | some name =>
    match ArgumentStyle.ofName? name with
    | some style => .ok style
    | none => .error (.invalidApi name)

namespace Config

def resolveStyle (config : Config) : Except ConfigFault (Option (LoggerSettings × ArgumentStyle)) :=
  match config.logger with
  | none => .ok none
  | some settings => do
    let style ← settings.resolveStyle
    pure (some (settings, style))

def checkNames (kind : EntryKind) : List String → Except ConfigFault Unit
  | [] => .ok ()
  | name :: rest => if isWord name then checkNames kind rest else .error (.invalidName kind name)

def resolvePackage (config : Config) : String :=
  match config.pkg with
  | none => defaultPackage
  | some "" => defaultPackage
  | some name => name

/-- What the sections with levels, attributes or a logger import. -/
def derivedImports (levels attributes logger : Bool) : List String :=
  (if levels || attributes || logger then ["log/slog"] else []) ++
  (if levels then ["fmt", "strings"] else []) ++
  (if logger then ["context", "runtime", "time"] else [])

/-- The plan of the logger: over the levels if there are any, else over the conventional ones. -/
def loggerPlan (levels : SortedMap Severity String) (settings : LoggerSettings)
    (style : ArgumentStyle) : LoggerPlan :=
  if levels.isEmpty then .conventional style settings.context
  else { levels, style, context := settings.context }

def resolve (config : Config) : Except ConfigFault Vocabulary := do
  let logger ← config.resolveStyle
  checkNames .level (config.levels.map (·.1))
  checkNames .attr (config.attributes.map (·.1))
  checkNames .const config.constants
  let levels := SortedMap.ofList (config.levels.map fun (name, severity) => (severity, name))
  let attributes := SortedMap.ofList config.attributes
  let derived := derivedImports (!levels.isEmpty) (!attributes.isEmpty) logger.isSome
  pure {
    package := config.resolvePackage
    imports := .ofList (config.imports ++ derived)
    levels
    constants := .ofList config.constants
    attributes
    logger := logger.map fun (settings, style) => loggerPlan levels settings style }

end Config
end SlogHelpers
