import SlogHelpers.Command.Parameter
import SlogHelpers.Document.Syntax
import SlogHelpers.Options
import SlogHelpers.Vocabulary

/-!
Reading the command line. It is read from left to right, and the first problem counts, except that a
value which stands apart from its option is judged only once the next option is met: a word that is
no option at all comes before it.
-/
namespace SlogHelpers.Command

structure Arguments where
  /-- The path of the document, or a dash for the input. -/
  config : Option String := none
  format : Option DocumentSyntax := none
  outputDir : Option String := none
  stdout : Bool := false
  dumpModel : Bool := false
  gofmt : Bool := false
  /-- How often more messages were asked for, up to 255. -/
  verbose : Nat := 0
  options : Options := {}
  deriving DecidableEq, Inhabited

inductive UsageFault where
  /-- A value is missing, empty or not one of those allowed. -/
  | invalidValue
  | unknownArgument
  /-- An option may not come twice, or not with another one. -/
  | argumentConflict
  | tooManyValues
  deriving DecidableEq, Repr

def UsageFault.message : UsageFault → String
  | .invalidValue => "a value is missing or not allowed"
  | .unknownArgument => "unexpected argument found"
  | .argumentConflict => "an argument cannot be used twice or together with another one"
  | .tooManyValues => "unexpected value for an argument found"

inductive Stop where
  | fault (fault : UsageFault)
  | help
  | version
  deriving DecidableEq, Repr

/-- Which messages are written for so many times that more of them were asked for. -/
def directive : Nat → String
  | 0 => "warn"
  | 1 => "info"
  | 2 => "debug"
  | _ => "trace"

namespace Arguments

def baseDirectory (a : Arguments) : String := a.outputDir.getD "."

def once {α : Type} (old : Option α) (value : Option α) : Except Stop (Option α) :=
  if old.isSome then .error (.fault .argumentConflict)
  else if value.isNone then .error (.fault .invalidValue)
  else .ok value

def nonEmpty (text : String) : Option String := if text.isEmpty then none else some text

def namedSyntax? (text : String) : Option DocumentSyntax :=
  [DocumentSyntax.json, .toml, .yaml].find? (·.name = text)

def namedStyle? (text : String) : Option String := (ArgumentStyle.ofName? text).map fun _ => text

def setValue (a : Arguments) (value : String) : ValueOption → Except Stop Arguments
  | .config => (once a.config (nonEmpty value)).map fun config => { a with config }
  | .format => (once a.format (namedSyntax? value)).map fun format => { a with format }
  | .outputDir => (once a.outputDir (nonEmpty value)).map fun outputDir => { a with outputDir }
  | .pkg => (once a.options.pkg (some value)).map fun pkg =>
    { a with options := { a.options with pkg } }
  | .api => (once a.options.api (namedStyle? value)).map fun api =>
    { a with options := { a.options with api } }
  | .imports => .ok { a with options := { a.options with imports := a.options.imports ++ [value] } }
  | .level => .ok { a with options := { a.options with levels := a.options.levels ++ [value] } }
  | .const =>
    .ok { a with options := { a.options with constants := a.options.constants ++ [value] } }
  | .attr =>
    .ok { a with options := { a.options with attributes := a.options.attributes ++ [value] } }

def onceSet (old : Bool) (a : Arguments) : Except Stop Arguments :=
  if old then .error (.fault .argumentConflict) else .ok a

def setSwitch (a : Arguments) : Switch → Except Stop Arguments
  | .logger => onceSet a.options.logger { a with options := { a.options with logger := true } }
  | .context => onceSet a.options.context { a with options := { a.options with context := true } }
  | .stdout => onceSet a.stdout { a with stdout := true }
  | .dumpModel => onceSet a.dumpModel { a with dumpModel := true }
  | .gofmt => onceSet a.gofmt { a with gofmt := true }
  | .verbose => .ok { a with verbose := min 255 (a.verbose + 1) }
  | .help => .error .help
  | .version => .error .version

end Arguments

/-- An option whose value stands apart from it and has not been judged yet. -/
inductive Pending where
  | none
  | awaited (option : ValueOption)
  | held (option : ValueOption) (value : String)
  deriving DecidableEq, Repr

structure Progress where
  arguments : Arguments := {}
  pending : Pending := .none
  deriving DecidableEq

namespace Progress

def settle (p : Progress) : Except Stop Arguments :=
  match p.pending with
  | .none => .ok p.arguments
  | .awaited _ => .error (.fault .invalidValue)
  | .held option value => p.arguments.setValue value option

def switch (p : Progress) (s : Switch) : Except Stop Progress := do
  let a ← p.settle
  let a ← a.setSwitch s
  pure { arguments := a }

def attached (p : Progress) (option : ValueOption) (value : String) : Except Stop Progress := do
  let a ← p.settle
  let a ← a.setValue value option
  pure { arguments := a }

/-- After an option whose value, if there is one, comes next. -/
def detached (p : Progress) (option : ValueOption) : Except Stop Progress := do
  let a ← p.settle
  pure { arguments := a, pending := .awaited option }

/-- After an option behind two dashes, with what follows its equals sign. -/
def readLong (p : Progress) (name : String) (value : Option String) : Except Stop Progress :=
  match Parameter.ofLong? name, value with
  | none, _ => .error (.fault .unknownArgument)
  | some (.value option), some value => p.attached option value
  | some (.value option), none => p.detached option
  | some (.switch _), some _ => .error (.fault .tooManyValues)
  | some (.switch s), none => p.switch s

/-- After letters behind one dash: switches, and at the end perhaps an option with its value, which
an equals sign may set off. -/
def readShort (p : Progress) : List Char → Except Stop Progress
  | [] => .ok p
  | letter :: rest =>
    match Parameter.ofShort? letter with
    | none => .error (.fault .unknownArgument)
    | some (.switch s) => do
      let p ← p.switch s
      p.readShort rest
    | some (.value option) =>
      match rest with
      | [] => p.detached option
      | '=' :: value => p.attached option (String.ofList value)
      | value => p.attached option (String.ofList value)

def readWord (p : Progress) (word : String) : Except Stop Progress :=
  match p.pending with
  | .awaited option => .ok { p with pending := .held option word }
  | _ => .error (.fault .unknownArgument)

def readAny (p : Progress) (word : String) : Except Stop Progress :=
  match word.toList with
  | '-' :: '-' :: rest =>
    match rest.span (· ≠ '=') with
    | (name, []) => p.readLong (String.ofList name) none
    | (name, _ :: value) => p.readLong (String.ofList name) (some (String.ofList value))
  | '-' :: letter :: rest => p.readShort (letter :: rest)
  | _ => p.readWord word

/-- After words up to two dashes alone, which end the options: nothing may follow them. -/
def readAll (p : Progress) : List String → Except Stop Progress
  | [] => .ok p
  | "--" :: rest => if rest.isEmpty then .ok p else .error (.fault .unknownArgument)
  | word :: rest => do
    let p ← p.readAny word
    p.readAll rest

end Progress

/-- The arguments that the words of a command line give. Printing the source and printing the model
exclude each other, which is judged last. -/
def Arguments.read (words : List String) : Except Stop Arguments := do
  let p ← Progress.readAll {} words
  let a ← p.settle
  if a.stdout && a.dumpModel then .error (.fault .argumentConflict) else pure a

end SlogHelpers.Command
