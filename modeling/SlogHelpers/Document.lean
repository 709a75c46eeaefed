import SlogHelpers.Config

/-!
Documents as they are written: lists of entries, each of which names one or more pairs, and an
optional block about the logger. A document turns into a configuration once no entry is empty.
-/
namespace SlogHelpers

/-- The pairs of one entry, in the order in which their keys first came; a later pair with the same
key takes the place of the earlier one. -/
structure Entry (α : Type) where
  pairs : List (String × α)
  distinct : (pairs.map (·.1)).Nodup

namespace Entry

variable {α : Type}

def empty : Entry α := ⟨[], List.nodup_nil⟩

/-- Puts the value at the key: in the place of the old one if there is one, else at the end. -/
def putInto (key : String) (value : α) : List (String × α) → List (String × α)
  | [] => [(key, value)]
  | pair :: rest => if pair.1 = key then (key, value) :: rest else pair :: putInto key value rest

theorem keys_putInto (key : String) (value : α) (pairs : List (String × α)) :
    (putInto key value pairs).map (·.1) =
      if key ∈ pairs.map (·.1) then pairs.map (·.1) else pairs.map (·.1) ++ [key] := by
  induction pairs with
  | nil => simp [putInto]
  | cons pair rest ih =>
    rw [putInto]
    by_cases h : pair.1 = key
    · simp [h]
    · simp only [h, ↓reduceIte, List.map_cons, ih, List.mem_cons, Ne.symm h, false_or]
      split <;> simp

def put (entry : Entry α) (key : String) (value : α) : Entry α :=
  ⟨putInto key value entry.pairs, by
    rw [keys_putInto]
    split
    · exact entry.distinct
    · next h =>
      refine List.nodup_append.2 ⟨entry.distinct, by simp, fun a ha b hb => ?_⟩
      rintro rfl
      exact h (List.mem_singleton.1 hb ▸ ha)⟩

def ofList (pairs : List (String × α)) : Entry α :=
  pairs.foldl (fun entry pair => entry.put pair.1 pair.2) empty

end Entry

structure Document where
  pkg : Option String := none
  imports : List String := []
  levels : List (Entry Severity) := []
  constants : List String := []
  attributes : List (Entry String) := []
  logger : Option LoggerSettings := none

namespace Document

/-- The place of the first entry without pairs: among the levels if there is one, else among the
attributes. -/
def emptyEntry? (document : Document) : Option (EntryKind × Nat) :=
  match document.levels.findIdx? (·.pairs.isEmpty) with
  | some index => some (.level, index)
  | none => (document.attributes.findIdx? (·.pairs.isEmpty)).map fun index => (.attr, index)

/-- The configuration that a document stands for: the pairs of all entries, one after the other. -/
def toConfig (document : Document) : Config :=
  { pkg := document.pkg
    imports := document.imports
    levels := document.levels.flatMap (·.pairs)
    constants := document.constants
    attributes := document.attributes.flatMap (·.pairs)
    logger := document.logger }

end Document
end SlogHelpers
