import SlogHelpers.Command.Run

/-!
The command on real files. From here no program can be started, so a formatter never is.
-/
namespace SlogHelpers.Command

def numberAndName : IO.Error → Nat × String
  | .alreadyExists _ code name => (code.toNat, name)
  | .otherError code name => (code.toNat, name)
  | .resourceBusy code name => (code.toNat, name)
  | .resourceVanished code name => (code.toNat, name)
  | .unsupportedOperation code name => (code.toNat, name)
  | .hardwareFault code name => (code.toNat, name)
  | .unsatisfiedConstraints code name => (code.toNat, name)
  | .illegalOperation code name => (code.toNat, name)
  | .protocolError code name => (code.toNat, name)
  | .timeExpired code name => (code.toNat, name)
  | .interrupted _ code name => (code.toNat, name)
  | .noFileOrDirectory _ code name => (code.toNat, name)
  | .invalidArgument _ code name => (code.toNat, name)
  | .permissionDenied _ code name => (code.toNat, name)
  | .resourceExhausted _ code name => (code.toNat, name)
  | .inappropriateType _ code name => (code.toNat, name)
  | .noSuchThing _ code name => (code.toNat, name)
  | .unexpectedEof => (0, "unexpected end of file")
  | .userError name => (0, name)

/-- A fault of the file system, among those that have a name here. Some numbers come with the
opposite sign. -/
def fileFault (error : IO.Error) : FileFault :=
  let (number, name) := numberAndName error
  match (if number < 0x80000000 then number else 0x100000000 - number), name with
  | 2, _ => .notFound
  | 17, _ => .alreadyThere
  | 20, _ => .notFolder
  | 21, _ => .isFolder
  | 36, _ => .nameTooLong
  | code, name => .other code name

def attempt {α : Type} (step : IO α) : IO (Except FileFault α) := do
  match ← step.toBaseIO with
  | .ok value => pure (.ok value)
  | .error error => pure (.error (fileFault error))

partial def readToEnd (stream : IO.FS.Stream) (read : ByteArray) : IO ByteArray := do
  let more ← stream.read 65536
  if more.isEmpty then pure read else readToEnd stream (read ++ more)

/-- Real files. A folder is told by its own name inside it being taken. -/
def systemHost : Host IO where
  input := do readToEnd (← IO.getStdin) .empty
  readFile path := attempt (IO.FS.readBinFile path)
  isFolder path := do
    match ← attempt (IO.FS.createDir (path ++ "/.")) with
    | .error .alreadyThere => pure true
    | _ => pure false
  makeFolder path := attempt (IO.FS.createDir path)
  writeFile path content := attempt (IO.FS.writeBinFile path content)
  rename source target := attempt (IO.FS.rename source target)
  removeFile path := do
    let _ ← attempt (IO.FS.removeFile path)
  runFormatter _ _ := pure (.notStarted FileFault.notFound.message)

end SlogHelpers.Command

def main (words : List String) : IO UInt32 := do
  let outcome ← SlogHelpers.Command.start SlogHelpers.Command.systemHost words
  IO.print outcome.output
  IO.eprint outcome.errors
  pure outcome.exit.toUInt32
