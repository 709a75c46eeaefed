import SlogHelpers.Text.Quoted

/-!
Why a vocabulary has no valid file.
-/
namespace SlogHelpers.Source

inductive Fault where
  | invalidPackage (name : String)
  /-- The entry `name` turns into a word that is no identifier. -/
  | invalidIdentifier (kind name identifier : String)
  | duplicateIdentifier (identifier : String)
  /-- The names of two levels differ in nothing but case. -/
  | duplicateLevelName (earlier later : String)
  | invalidImport (path : String)
  | invalidType (key type : String)
  deriving DecidableEq, Repr

def Fault.message : Fault → String
  | .invalidPackage name =>
    String.join ["package name ", Text.quoted name, " is not a valid Go identifier"]
  | .invalidIdentifier kind name identifier =>
    String.join
      [kind, " ", Text.quoted name, " produces invalid identifier ", Text.quoted identifier]
  | .duplicateIdentifier identifier =>
    String.join ["identifier ", Text.quoted identifier, " is declared more than once"]
  | .duplicateLevelName earlier later =>
    String.join ["level names ", Text.quoted earlier, " and ", Text.quoted later,
      " are equal ignoring case"]
  | .invalidImport path => String.join ["import path ", Text.quoted path, " is not valid"]
  | .invalidType key type =>
    String.join ["attr ", Text.quoted key, ": ", Text.quoted type, " is not a valid Go type"]

def Fault.fileMessage (fault : Fault) : String :=
  String.join ["invalid code: ", fault.message]

end SlogHelpers.Source
