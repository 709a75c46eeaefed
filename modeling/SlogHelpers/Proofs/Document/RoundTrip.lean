import SlogHelpers.Proofs.Document.Reading
import SlogHelpers.Proofs.Json.Printing

/-!
Configurations written as JSON documents. Whatever spells the document of a configuration is read as
that configuration.
-/
namespace SlogHelpers
open Document Document.OfJson Fallible

def Json.ofOptional (value : Option String) : Json := value.elim .null .string

def Json.ofPair {α : Type} (value : α → Json) (pair : String × α) : Json :=
  .object [(pair.1, value pair.2)] true

def Json.ofSeverity (s : Severity) : Json := .number (.integer s.toInt)

def LoggerSettings.toJson (settings : LoggerSettings) : Json :=
  .object [("api", .ofOptional settings.api), ("ctx", .bool settings.context)] true

/-- The members of the document of a configuration, with an object for each level and attribute. -/
def Config.members (config : Config) : List (String × Json) := [
  ("pkg", .ofOptional config.pkg),
  ("imports", .array (config.imports.map .string) true),
  ("levels", .array (config.levels.map (.ofPair .ofSeverity)) true),
  ("consts", .array (config.constants.map .string) true),
  ("attrs", .array (config.attributes.map (.ofPair .string)) true),
  ("logger", config.logger.elim .null LoggerSettings.toJson)]

def Config.toJson (config : Config) : Json := .object config.members true

def Entry.ofPair {α : Type} (pair : String × α) : Entry α := ⟨[pair], by simp⟩

/-! ## The document is written without gaps -/

theorem Json.wholeItems_map {α : Type} {f : α → Json} (h : ∀ a, (f a).Whole) (xs : List α) :
    WholeItems (xs.map f) := by
  induction xs with
  | nil => exact trivial
  | cons x xs ih => exact ⟨h x, ih⟩

theorem Json.whole_string (value : String) : (string value).Whole := trivial

theorem Json.whole_ofOptional (value : Option String) : (ofOptional value).Whole := by
  cases value <;> exact trivial

theorem Json.whole_ofSeverity (s : Severity) : (ofSeverity s).Whole := by
  have hmax := s.lt_max
  exact ⟨s.min_le, by rw [show maxWord = 0xFFFFFFFFFFFFFFFF from rfl]; omega⟩

theorem Json.whole_ofPair {α : Type} {value : α → Json} (h : ∀ a, (value a).Whole)
    (pair : String × α) :
    (ofPair value pair).Whole :=
  ⟨rfl, h pair.2, trivial⟩

theorem LoggerSettings.whole_toJson (settings : LoggerSettings) : settings.toJson.Whole :=
  ⟨rfl, Json.whole_ofOptional _, trivial, trivial⟩

theorem Config.whole_toJson (config : Config) : config.toJson.Whole := by
  refine ⟨rfl, Json.whole_ofOptional _, ⟨rfl, Json.wholeItems_map Json.whole_string _⟩,
    ⟨rfl, Json.wholeItems_map (Json.whole_ofPair Json.whole_ofSeverity) _⟩,
    ⟨rfl, Json.wholeItems_map Json.whole_string _⟩,
    ⟨rfl, Json.wholeItems_map (Json.whole_ofPair Json.whole_string) _⟩, ?_, trivial⟩
  cases config.logger with
  | none => exact trivial
  | some settings => exact settings.whole_toJson

/-! ## Reading it -/

theorem optionalString_ofOptional (value : Option String) :
    optionalString (.ofOptional value) = .ok value := by
  cases value <;> rfl

theorem list_map {α β : Type} {item : Json → Except OfJson.Fault α} {f : β → Json} {g : β → α}
    (h : ∀ b, item (f b) = .ok (g b)) (xs : List β) :
    list item (.array (xs.map f) true) = .ok (xs.map g) := by
  rw [list, mapM_map_eq_ok_map fun x _ => h x]
  rfl

theorem list_string (values : List String) :
    list string (.array (values.map .string) true) = .ok values := by
  rw [list_map (f := .string) (g := id) fun _ => rfl, List.map_id]

theorem severity_ofSeverity (s : Severity) : severity (.ofSeverity s) = .ok s := by
  simp only [Json.ofSeverity, severity, Severity.ofInt?_toInt]

theorem entry_ofPair {α : Type} {toJson : α → Json} {value : Json → Except OfJson.Fault α}
    (h : ∀ a, value (toJson a) = .ok a) (pair : String × α) :
    entry value (.ofPair toJson pair) = .ok (Entry.ofPair pair) := by
  simp only [entry, Json.ofPair, List.mapM_cons, List.mapM_nil, h]
  rfl

theorem logger_toJson (settings : Option LoggerSettings) :
    logger (settings.elim .null LoggerSettings.toJson) = .ok settings := by
  cases settings with
  | none => rfl
  | some settings =>
    obtain ⟨api, context⟩ := settings
    have hrecord : record loggerReader Document.LoggerField.all {} .loggerBlock
        (LoggerSettings.toJson ⟨api, context⟩) = .ok ⟨api, context⟩ := by
      have hapi : loggerReader.set .api (.ofOptional api) {} = .ok ⟨api, false⟩ := by
        simp only [loggerReader, optionalString_ofOptional]
        rfl
      rw [LoggerSettings.toJson, record, readNamed_cons rfl List.not_mem_nil hapi]
      rfl
    exact congrArg (Except.map some) hrecord

def Config.toDocument (config : Config) : Document where
  pkg := config.pkg
  imports := config.imports
  levels := config.levels.map Entry.ofPair
  constants := config.constants
  attributes := config.attributes.map Entry.ofPair
  logger := config.logger

theorem readNamed_members (config : Config) :
    reader.readNamed [] {} config.members = .ok config.toDocument := by
  have hpkg (doc : Document) :
      reader.set .pkg (.ofOptional config.pkg) doc = .ok { doc with pkg := config.pkg } := by
    simp only [reader, optionalString_ofOptional]
    rfl
  have himports (doc : Document) :
      reader.set .imports (.array (config.imports.map .string) true) doc =
      .ok { doc with imports := config.imports } := by
    simp only [reader, list_string]
    rfl
  have hlevels (doc : Document) :
      reader.set .levels (.array (config.levels.map (.ofPair .ofSeverity)) true) doc =
      .ok { doc with levels := config.levels.map Entry.ofPair } := by
    simp only [reader, list_map (entry_ofPair severity_ofSeverity)]
    rfl
  have hconsts (doc : Document) :
      reader.set .consts (.array (config.constants.map .string) true) doc =
      .ok { doc with constants := config.constants } := by
    simp only [reader, list_string]
    rfl
  have hattrs (doc : Document) :
      reader.set .attrs (.array (config.attributes.map (.ofPair .string)) true) doc =
      .ok { doc with attributes := config.attributes.map Entry.ofPair } := by
    have hentry : ∀ pair : String × String,
        entry string (.ofPair .string pair) = .ok (Entry.ofPair pair) :=
      entry_ofPair fun _ => rfl
    simp only [reader, list_map hentry]
    rfl
  have hlogger (doc : Document) :
      reader.set .logger (config.logger.elim .null LoggerSettings.toJson) doc =
      .ok { doc with logger := config.logger } := by
    simp only [reader, logger_toJson]
    rfl
  rw [Config.members, readNamed_cons rfl (by decide) (hpkg _),
    readNamed_cons rfl (by decide) (himports _), readNamed_cons rfl (by decide) (hlevels _),
    readNamed_cons rfl (by decide) (hconsts _), readNamed_cons rfl (by decide) (hattrs _),
    readNamed_cons rfl (by decide) (hlogger _)]
  rfl

theorem Config.toConfig_toDocument (config : Config) : config.toDocument.toConfig = config := by
  simp [toDocument, Document.toConfig, Entry.ofPair, List.flatMap_map]

theorem Config.emptyEntry?_toDocument (config : Config) : config.toDocument.emptyEntry? = none := by
  have hnone : ∀ {α : Type} (pairs : List (String × α)),
      (pairs.map Entry.ofPair).findIdx? (·.pairs.isEmpty) = none := by
    intro α pairs
    simp [List.findIdx?_eq_none_iff, Entry.ofPair]
  rw [toDocument, emptyEntry?, hnone, hnone]
  rfl

/-- The document of a configuration can be written, and however it is written, it is read as the
configuration. -/
theorem Config.read_toJson (config : Config) :
    Json.Spells config.toJson.pretty.toList config.toJson ∧
      ∀ text : String, Json.Spells text.toList config.toJson →
        ∃ document, Document.read .json text = .ok document ∧ document.toConfig = config := by
  constructor
  · rw [Json.pretty, String.toList_ofList]
    exact Json.spells_printed config.whole_toJson
  · intro text h
    exact ⟨config.toDocument,
      (read_json_eq_ok h).2 ⟨readNamed_members config, config.emptyEntry?_toDocument⟩,
      config.toConfig_toDocument⟩

/-- Characters that a JSON string escapes and others beyond ASCII, the greatest severity and a
negative one, and entries that repeat a name. -/
def foreignConfig : Config where
  pkg := some "日本\t\"\\\x7f"
  imports := ["", ""]
  levels := [("é\x00", ⟨0x7fffffffffffffff, by decide, by decide⟩),
    ("é\x00", ⟨-0x7fffffffffffffff, by decide, by decide⟩)]
  attributes := [("id", "int"), ("id", "\u2028")]
  logger := some { context := true }

theorem Config.read_toJson_foreignConfig :
    ∃ document, Document.read .json foreignConfig.toJson.pretty = .ok document ∧
      document.toConfig = foreignConfig :=
  (read_toJson foreignConfig).2 foreignConfig.toJson.pretty (read_toJson foreignConfig).1

end SlogHelpers
