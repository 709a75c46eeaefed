/-!
The values of TOML texts. A table remembers how it came to be, which decides what may still be added
to it.
-/
namespace SlogHelpers

/-- How a table came to be. -/
inductive Toml.TableKind where
  | inline
  | headed
  /-- A header has named a table inside it; it may still get its own. -/
  | implied
  /-- A key with dots has named it. -/
  | dotted
  deriving DecidableEq, Repr

inductive Toml where
  | string (value : String)
  | integer (value : Int)
  /-- A number that is not whole, or a text that only passes for a number; what it is does not
  matter. -/
  | otherNumber
  | boolean (value : Bool)
  | moment (text : String)
  | array (items : List Toml)
  /-- Tables with one header each, the newest first. -/
  | tables (newestFirst : List (List (String × Toml)))
  | table (entries : List (String × Toml)) (kind : Toml.TableKind)

namespace Toml

abbrev Entries := List (String × Toml)

/-- A key with what leads to it: the tables named before the last dot. -/
structure Key where
  path : List String
  last : String
  deriving DecidableEq, Repr

def alter (key : String) (change : Option Toml → Option Toml) : Entries → Option Entries
  | [] => (change none).map fun value => [(key, value)]
  | (k, old) :: rest =>
    if k = key then (change (some old)).map fun value => (k, value) :: rest
    else (alter key change rest).map ((k, old) :: ·)

/-- A value for a key that must not have one yet. -/
def fresh (value : Toml) : Option Toml → Option Toml
  | none => some value
  | some _ => none

/-- Puts a value at a key. The tables that lead to it must be new, or named by keys with dots
only. -/
def put (value : Toml) (last : String) : List String → Entries → Option Entries
  | [], entries => alter last (fresh value) entries
  | step :: path, entries =>
    alter step (fun
      | none => (put value last path []).map (.table · .dotted)
      | some (.table child .dotted) => (put value last path child).map (.table · .dotted)
      | _ => none) entries

def putAll (entries : Entries) (pairs : List (Key × Toml)) : Option Entries :=
  pairs.foldlM (fun entries (key, value) => put value key.last key.path entries) entries

/-- Puts at the key of a header what `change` makes of the value there. Tables that lead to it and
are not there yet are implied; of tables with one header each the newest is meant. -/
def alterAt (change : Option Toml → Option Toml) (last : String) : List String → Entries →
    Option Entries
  | [], entries => alter last change entries
  | step :: path, entries =>
    alter step (fun
      | none => (alterAt change last path []).map (.table · .implied)
      | some (.table child kind) =>
        if kind = .inline then none else (alterAt change last path child).map (.table · kind)
      | some (.tables (newest :: older)) =>
        (alterAt change last path newest).map fun newest => .tables (newest :: older)
      | _ => none) entries

structure Section where
  key : Key
  /-- The header adds one more table to those with the same header. -/
  repeated : Bool
  pairs : List (Key × Toml)

/-- The table of a section, which must not have had a header before. -/
def headedTable (pairs : List (Key × Toml)) : Option Toml → Option Toml
  | none => (putAll [] pairs).map (.table · .headed)
  | some (.table entries .implied) => (putAll entries pairs).map (.table · .headed)
  | _ => none

def repeatedTable (pairs : List (Key × Toml)) : Option Toml → Option Toml
  | none => (putAll [] pairs).map fun entries => .tables [entries]
  | some (.tables older) => (putAll [] pairs).map fun entries => .tables (entries :: older)
  | _ => none

def putSection (entries : Entries) (s : Section) : Option Entries :=
  alterAt (if s.repeated then repeatedTable s.pairs else headedTable s.pairs) s.key.last
    s.key.path entries

def assemble (pairs : List (Key × Toml)) (sections : List Section) : Option Entries := do
  let entries ← putAll [] pairs
  sections.foldlM putSection entries

end Toml
end SlogHelpers
