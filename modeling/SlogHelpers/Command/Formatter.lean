import SlogHelpers.Text.Blank
import SlogHelpers.Text.Utf8

/-!
Passing a source file through a formatter: a program that takes it as input and prints it formatted.
-/
namespace SlogHelpers.Command

inductive FormatterRun where
  | notStarted (reason : String)
  /-- It ended, with or without success, after it wrote its output and its error output. -/
  | ended (success : Bool) (output errors : ByteArray)

structure FormatFault where
  program : String
  reason : String
  deriving DecidableEq, Repr

def FormatFault.message (fault : FormatFault) : String :=
  String.join ["formatting code with ", fault.program, ": ", fault.reason]

/-- The text that a run of the program came to. Of a program that fails the error output is the
reason. -/
def FormatterRun.text (program : String) : FormatterRun → Except FormatFault String
  | .notStarted reason => .error ⟨program, reason⟩
  | .ended false _ errors => .error ⟨program, Text.trim (Text.Utf8.decodeLossy errors)⟩
  | .ended true output _ =>
    match Text.Utf8.decode output with
    | .ok text => .ok text
    | .error fault => .error ⟨program, fault.message⟩

end SlogHelpers.Command
