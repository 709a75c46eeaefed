import SlogHelpers.Config.Resolve
import SlogHelpers.Document.Read
import SlogHelpers.Source.Emit

/-!
From a document and options to a vocabulary, and on to its Go source file.
-/
namespace SlogHelpers

inductive Fault where
  | document (fault : DocumentFault)
  | config (fault : ConfigFault)
  | source (fault : Source.Fault)
  deriving DecidableEq

def Fault.message : Fault → String
  | .document fault => fault.message
  | .config fault => fault.message
  | .source fault => fault.fileMessage

structure WrittenDocument where
  written : DocumentSyntax
  text : String
  deriving DecidableEq

def baseConfig : Option WrittenDocument → Except Fault Config
  | none => .ok {}
  | some ⟨written, text⟩ => ((Document.read written text).map Document.toConfig).mapError .document

def load (document : Option WrittenDocument) (options : Options) : Except Fault Vocabulary := do
  let base ← baseConfig document
  let config ← (base.layer options).mapError .config
  config.resolve.mapError .config

def emitFile (v : Vocabulary) : Except Fault String := (Source.emit v).mapError .source

/-- The Go source file of a document with options laid over it. -/
def generate (document : Option WrittenDocument) (options : Options) : Except Fault String :=
  load document options >>= emitFile

end SlogHelpers
