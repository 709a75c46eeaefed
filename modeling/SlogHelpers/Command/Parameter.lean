/-!
What the command line may hold: options that take a value and switches that take none.
-/
namespace SlogHelpers.Command

inductive ValueOption where
  | config
  | format
  | pkg
  | imports
  | level
  | const
  | attr
  | api
  | outputDir
  deriving DecidableEq, Repr

inductive Switch where
  | logger
  | context
  | stdout
  | dumpModel
  | gofmt
  | verbose
  | help
  | version
  deriving DecidableEq, Repr

inductive Parameter where
  | value (option : ValueOption)
  | switch (s : Switch)
  deriving DecidableEq, Repr

def ValueOption.long : ValueOption → String
  | .config => "config"
  | .format => "format"
  | .pkg => "pkg"
  | .imports => "import"
  | .level => "level"
  | .const => "const"
  | .attr => "attr"
  | .api => "api"
  | .outputDir => "output-dir"

def ValueOption.short? : ValueOption → Option Char
  | .imports => some 'i'
  | .level => some 'l'
  | .const => some 'c'
  | .attr => some 'a'
  | .outputDir => some 'o'
  | _ => none

def Switch.long : Switch → String
  | .logger => "logger"
  | .context => "ctx"
  | .stdout => "stdout"
  | .dumpModel => "dump-model"
  | .gofmt => "gofmt"
  | .verbose => "verbose"
  | .help => "help"
  | .version => "version"

def Switch.short? : Switch → Option Char
  | .verbose => some 'v'
  | .help => some 'h'
  | .version => some 'V'
  | _ => none

namespace Parameter

def all : List Parameter := [
  .value .config, .value .format, .value .pkg, .value .imports, .value .level, .value .const,
  .value .attr, .switch .logger, .value .api, .switch .context, .value .outputDir, .switch .stdout,
  .switch .dumpModel, .switch .gofmt, .switch .verbose, .switch .help, .switch .version]

def long : Parameter → String
  | .value option => option.long
  | .switch s => s.long

def short? : Parameter → Option Char
  | .value option => option.short?
  | .switch s => s.short?

def ofLong? (name : String) : Option Parameter := all.find? (·.long = name)

def ofShort? (letter : Char) : Option Parameter := all.find? (·.short? = some letter)

end Parameter
end SlogHelpers.Command
