import SlogHelpers.Command.Parameter

/-!
What the command says about itself.
-/
namespace SlogHelpers.Command

def versionText : String := "sloggen 0.3.0\n"

/-- Each option as the help shows it, and what it does. -/
def helpRows : List (String × String) := [
  ("    --config <PATH>", "Read a JSON, TOML or YAML config document ('-' for stdin)"),
  ("    --format <FORMAT>",
    "Config document syntax (inferred from extension if not specified) " ++
      "[possible values: json, toml, yaml]"),
  ("    --pkg <NAME>", "Package name of the generated file [default: slogx]"),
  ("-i, --import <PATH>", "Add an import path (repeatable)"),
  ("-l, --level <NAME:SEVERITY>",
    "Add a level; a later entry with the same severity wins (repeatable)"),
  ("-c, --const <NAME>", "Add a string constant (repeatable)"),
  ("-a, --attr <KEY:TYPE>",
    "Add an attribute constructor; a later entry with the same key wins (repeatable)"),
  ("    --logger", "Generate a Logger type with one method per level"),
  ("    --api <API>",
    "Logger method arguments: '...any' or '...slog.Attr' [default: any] [possible values: any, attr]"),
  ("    --ctx", "Add a leading context.Context parameter to Logger methods"),
  ("-o, --output-dir <DIR>", "Directory that receives <pkg>/<pkg>.go [default: .]"),
  ("    --stdout", "Print the generated source instead of writing a file"),
  ("    --dump-model", "Print the resolved model as JSON and exit"),
  ("    --gofmt", "Pipe the generated source through gofmt"),
  ("-v, --verbose...", "Increase log verbosity (-v info, -vv debug, -vvv trace)"),
  ("-h, --help", "Print help"),
  ("-V, --version", "Print version")]

/-- A row of the help: the option, and what it does from a fixed column on. -/
def helpRow (row : String × String) : String :=
  String.join ["  ", row.1, String.ofList (List.replicate (29 - row.1.length) ' '), row.2, "\n"]

def usageText : String :=
  String.join [
    "Generate typed log/slog helpers for Go\n\n",
    "Usage: sloggen --config <PATH> [OPTIONS]\n",
    "  sloggen [--pkg <NAME>] [-l <NAME:SEVERITY>]... [-a <KEY:TYPE>]... [OPTIONS]\n\n"]

def examplesText : String :=
  String.join [
    "EXAMPLES:\n",
    "  sloggen --config sloggen.toml                    # writes ./slogx/slogx.go\n",
    "  sloggen --pkg log -l trace:-8 -a user_id:int     # flags only\n",
    "  sloggen --config sloggen.json -l alert:12        # flags layered over the document\n",
    "  sloggen --logger --api attr --ctx --stdout       # print a Logger wrapper\n",
    "  cat sloggen.toml | sloggen --config - --format toml\n\n",
    "Set SLOGGEN_LOG (e.g. SLOGGEN_LOG=debug) to override -v.\n"]

def helpText : String :=
  String.join [usageText, "Options:\n", String.join (helpRows.map helpRow), "\n", examplesText]

end SlogHelpers.Command
