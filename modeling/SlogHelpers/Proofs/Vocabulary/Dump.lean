import SlogHelpers.Proofs.Document.RoundTrip
import SlogHelpers.Proofs.Json.Reading
import SlogHelpers.Proofs.Lists
import SlogHelpers.Proofs.SortedMap
import SlogHelpers.Proofs.SortedSet
import SlogHelpers.Vocabulary.Dump

/-!
Vocabularies read back from their JSON texts. A text keeps all that a vocabulary has, each map with
its keys in their own order: severities by what they are worth and not by their digits, all others
by their characters.
-/
namespace SlogHelpers

/-- The plan of a logger as a text has it, with the levels in their order there. -/
structure LoggerDump where
  levels : List (Severity × String)
  style : ArgumentStyle
  context : Bool

/-- A vocabulary as a text has it, with all entries in their order there. -/
structure Dump where
  package : String
  imports : List String
  levels : List (Severity × String)
  constants : List String
  attributes : List (String × String)
  logger : Option LoggerDump

/-! ## Reading -/

namespace Dump

def text? : Json → Option String
  | .string value => some value
  | _ => none

def flag? : Json → Option Bool
  | .bool value => some value
  | _ => none

def texts? : Json → Option (List String)
  | .array items true => items.mapM text?
  | _ => none

/-- The members of an object whose names tell keys. -/
def entries? {κ : Type} (key? : String → Option κ) : Json → Option (List (κ × String))
  | .object members true => members.mapM fun (name, value) => do
    let key ← key? name
    let text ← text? value
    pure (key, text)
  | _ => none

def levels? : Json → Option (List (Severity × String)) :=
  entries? fun name => Severity.ofConstant? name.toList

def logger? : Json → Option (Option LoggerDump)
  | .null => some none
  | .object members true => do
    let levels ← (members.lookup "levels").bind levels?
    let style ← ((members.lookup "api").bind text?).bind ArgumentStyle.ofName?
    let context ← (members.lookup "context").bind flag?
    pure (some { levels, style, context })
  | _ => none

def ofMembers? (members : List (String × Json)) : Option Dump := do
  let package ← (members.lookup "package").bind text?
  let imports ← (members.lookup "imports").bind texts?
  let levels ← (members.lookup "levels").bind levels?
  let constants ← (members.lookup "consts").bind texts?
  let attributes ← (members.lookup "attrs").bind (entries? some)
  let logger ← (members.lookup "logger").bind logger?
  pure { package, imports, levels, constants, attributes, logger }

def toVocabulary (dump : Dump) : Vocabulary where
  package := dump.package
  imports := .ofList dump.imports
  levels := .ofList dump.levels
  constants := .ofList dump.constants
  attributes := .ofList dump.attributes
  logger := dump.logger.map fun plan =>
    { levels := .ofList plan.levels, style := plan.style, context := plan.context }

/-! ## Order -/

/-- One text comes before the other by the code points of their characters. -/
def PrecedesText (s t : String) : Prop := List.Lex (fun c d => c.toNat < d.toNat) s.toList t.toList

/-- Each level is below the next. -/
def Rising (levels : List (Severity × String)) : Prop :=
  (levels.map fun entry => entry.1.toInt).Pairwise (· < ·)

/-- Entries stand in the order of their keys, and no key comes twice. -/
structure Ordered (dump : Dump) : Prop where
  imports : dump.imports.Pairwise PrecedesText
  levels : Rising dump.levels
  constants : dump.constants.Pairwise PrecedesText
  attributes : (dump.attributes.map Prod.fst).Pairwise PrecedesText
  logger : ∀ plan ∈ dump.logger, Rising plan.levels

theorem rising_toList (levels : SortedMap Severity String) : Rising levels.toList :=
  List.pairwise_map.2 levels.ascending

theorem precedesText_toList (strings : SortedSet String) : strings.toList.Pairwise PrecedesText :=
  strings.ascending

end Dump

/-! ## Vocabularies -/

namespace Vocabulary
open Dump

def entries (v : Vocabulary) : Dump where
  package := v.package
  imports := v.imports.toList
  levels := v.levels.toList
  constants := v.constants.toList
  attributes := v.attributes.toList
  logger := v.logger.map fun plan =>
    { levels := plan.levels.toList, style := plan.style, context := plan.context }

theorem ordered_entries (v : Vocabulary) : v.entries.Ordered where
  imports := precedesText_toList v.imports
  levels := rising_toList v.levels
  constants := precedesText_toList v.constants
  attributes := List.pairwise_map.2 v.attributes.ascending
  logger := by
    intro plan hp
    obtain ⟨original, -, rfl⟩ := Option.map_eq_some_iff.1 hp
    exact rising_toList original.levels

theorem toVocabulary_entries (v : Vocabulary) : v.entries.toVocabulary = v := by
  obtain ⟨package, imports, levels, constants, attributes, logger⟩ := v
  simp only [entries, toVocabulary, SortedSet.ofList_toList, SortedMap.ofList_toList,
    Option.map_map]
  cases logger with
  | none => rfl
  | some plan => simp only [Option.map_some, Function.comp_apply, SortedMap.ofList_toList]

theorem texts?_stringsJson (strings : SortedSet String) :
    texts? (stringsJson strings) = some strings.toList := by
  have hm : (strings.toList.map Json.string).mapM text? = some (strings.toList.map id) :=
    Lists.mapM_map_eq_some fun _ _ => rfl
  rw [stringsJson, texts?, hm, List.map_id]

theorem entries?_members {κ : Type} {key? : String → Option κ} {name : κ → String}
    (h : ∀ k, key? (name k) = some k) (es : List (κ × String)) :
    entries? key?
      (.object (es.map fun entry => (name entry.1, .string entry.2)) true) = some es := by
  have hm : entries? key? (.object (es.map fun entry => (name entry.1, .string entry.2)) true) =
      some (es.map id) := by
    refine Lists.mapM_map_eq_some fun entry _ => ?_
    simp only [h, text?]
    rfl
  rw [hm, List.map_id]

theorem levels?_levelsJson (levels : SortedMap Severity String) :
    levels? (levelsJson levels) = some levels.toList :=
  entries?_members Severity.ofConstant?_text levels.toList

theorem logger?_toJson (logger : Option LoggerPlan) :
    logger? ((logger.map LoggerPlan.toJson).getD .null) = some (logger.map fun plan =>
      { levels := plan.levels.toList, style := plan.style, context := plan.context }) := by
  cases logger with
  | none => rfl
  | some plan =>
    have hlevels := levels?_levelsJson plan.levels
    have hstyle := ArgumentStyle.ofName?_name plan.style
    change (do
      let levels ← levels? (levelsJson plan.levels)
      let style ← ArgumentStyle.ofName? plan.style.name
      let context ← some plan.context
      pure (some (LoggerDump.mk levels style context))) = _
    rw [hlevels, hstyle]
    rfl

theorem exists_members (v : Vocabulary) :
    ∃ members, v.toJson = .object members true ∧ ofMembers? members = some v.entries := by
  refine ⟨_, rfl, ?_⟩
  have hattributes : entries? some
      (.object (v.attributes.toList.map fun entry => (entry.1, .string entry.2)) true) =
      some v.attributes.toList := entries?_members (fun _ => rfl) v.attributes.toList
  change (do
    let package ← some v.package
    let imports ← texts? (stringsJson v.imports)
    let levels ← levels? (levelsJson v.levels)
    let constants ← texts? (stringsJson v.constants)
    let attributes ← entries? some
      (.object
        (v.attributes.toList.map fun entry : String × String => (entry.1, .string entry.2)) true)
    let logger ← logger? ((v.logger.map LoggerPlan.toJson).getD .null)
    pure (Dump.mk package imports levels constants attributes logger)) = _
  rw [texts?_stringsJson, levels?_levelsJson, texts?_stringsJson, hattributes, logger?_toJson]
  rfl

/-! ## Texts -/

theorem wholeMembers_map {α : Type} {f : α → String × Json} (h : ∀ a, (f a).2.Whole) (xs : List α) :
    Json.WholeMembers (xs.map f) := by
  induction xs with
  | nil => exact trivial
  | cons x xs ih => exact ⟨h x, ih⟩

theorem whole_levelsJson (levels : SortedMap Severity String) : (levelsJson levels).Whole := by
  refine ⟨rfl, wholeMembers_map (fun entry => ?_) levels.toList⟩
  exact Json.whole_string entry.2

theorem whole_stringsJson (strings : SortedSet String) : (stringsJson strings).Whole :=
  ⟨rfl, Json.wholeItems_map Json.whole_string _⟩

theorem whole_toJson (v : Vocabulary) : v.toJson.Whole := by
  refine ⟨rfl, Json.whole_string _, whole_stringsJson _, whole_levelsJson _, whole_stringsJson _,
    ⟨rfl, wholeMembers_map (fun entry => ?_) v.attributes.toList⟩, ?_, trivial⟩
  · exact Json.whole_string entry.2
  · cases v.logger with
    | none => exact trivial
    | some plan => exact ⟨rfl, whole_levelsJson _, trivial, trivial, trivial⟩

/-- The line break behind the text is white space. -/
theorem spells_dump (v : Vocabulary) : Json.Spells (v.dump ++ "\n").toList v.toJson := by
  have ht : (v.dump ++ "\n").toList = [] ++ Json.printed 0 v.toJson ++ ['\n'] := by
    rw [String.toList_append, dump, Json.pretty, String.toList_ofList, List.nil_append]
    rfl
  rw [ht]
  exact .element (by simp [Json.Spaces]) (Json.spelled_printed 0 v.toJson (whole_toJson v))
    (by simp [Json.Spaces])

/-- The printed text of a vocabulary is one JSON object and spells no other value, and its members,
each list in the order of the text, tell the vocabulary. -/
theorem dump_determines (v : Vocabulary) :
    ∃ members dump,
      (∀ json, Json.Spells (v.dump ++ "\n").toList json ↔ json = .object members true) ∧
      ofMembers? members = some dump ∧ dump.Ordered ∧ dump.toVocabulary = v := by
  obtain ⟨members, hjson, hentries⟩ := exists_members v
  have hspells := spells_dump v
  rw [hjson] at hspells
  refine ⟨members, v.entries, fun json =>
    ⟨fun h => ?_, ?_⟩, hentries, ordered_entries v, toVocabulary_entries v⟩
  · have hread := (Json.read_of_spells h).symm.trans (Json.read_of_spells hspells)
    exact (Prod.mk.inj hread).1
  · rintro rfl
    exact hspells

example : (entries { (default : Vocabulary) with
    levels := .ofList
      [(12, "alert"), (⟨-4, by decide, by decide⟩, "debug"), (⟨-8, by decide, by decide⟩, "trace"),
      (4, "warn")] }).levels.map (fun entry => entry.1.text) =
        ["-8", "-4", "4", "12"] := by decide +kernel

end Vocabulary
end SlogHelpers
