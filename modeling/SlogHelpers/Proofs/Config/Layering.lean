import SlogHelpers.Generate
import SlogHelpers.Proofs.Config.Resolve
import SlogHelpers.Proofs.Json.Printing
import SlogHelpers.Proofs.Json.Reading
import SlogHelpers.Proofs.SortedMap
import SlogHelpers.Proofs.SortedSet

/-!
What a vocabulary takes from a document and what from the options laid over it. Entries of the
options count before those of the document, and later entries before earlier ones; a single value of
the options replaces the one of the document; and a logger is there as soon as one of the two asks
for it.
-/
namespace SlogHelpers
open Fallible SlogHelpers.Lists

/-- The document that is given. Where there is none, it is the one that says nothing. -/
def Document.ofGiven : Option WrittenDocument → Except DocumentFault Document
  | none => .ok {}
  | some given => Document.read given.written given.text

theorem baseConfig_of_given {given : Option WrittenDocument} {document : Document}
    (h : Document.ofGiven given = .ok document) : baseConfig given = .ok document.toConfig := by
  cases given with
  | none =>
    cases h
    rfl
  | some written =>
    change Document.read written.written written.text = .ok document at h
    rw [baseConfig, h]
    rfl

/-- Once the document is read, all faults are those of the configuration. -/
theorem load_of_given {given : Option WrittenDocument} {document : Document}
    (h : Document.ofGiven given = .ok document) (options : Options) :
    load given options = (document.toConfig.layer options >>= Config.resolve).mapError .config := by
  rw [load, baseConfig_of_given h]
  change ((document.toConfig.layer options).mapError Fault.config >>= fun config =>
    config.resolve.mapError .config) = _
  cases document.toConfig.layer options with
  | error fault => rfl
  | ok config => rfl

namespace Config

variable {config layered : Config} {options : Options}

/-- The configuration with what is read from the options behind it. -/
def extended (config : Config) (options : Options) (levels : List (String × Severity))
    (attributes : List (String × String)) : Config where
  pkg := options.pkg.or config.pkg
  imports := config.imports ++ options.imports
  levels := config.levels ++ levels
  constants := config.constants ++ options.constants
  attributes := config.attributes ++ attributes
  logger := layeredLogger config.logger options

theorem layer_eq_ok :
    config.layer options = .ok layered ↔
      ∃ levels, options.levels.mapM Options.readLevel = .ok levels ∧
        ∃ attributes, options.attributes.mapM Options.readAttribute = .ok attributes ∧
          layered = config.extended options levels attributes := by
  simp only [layer, bind_eq_ok]
  constructor
  · rintro ⟨levels, hl, attributes, ha, h⟩
    exact ⟨levels, hl, attributes, ha, (Except.ok.inj h).symm⟩
  · rintro ⟨levels, hl, attributes, ha, rfl⟩
    exact ⟨levels, hl, attributes, ha, rfl⟩

variable {logger : Option LoggerSettings}

theorem isSome_layeredLogger :
    (layeredLogger logger options).isSome = (logger.isSome || options.logger) := by
  rw [layeredLogger, Option.isSome_map]
  cases options.logger with
  | false => simp
  | true => simp

theorem of_mem_layeredLogger {settings : LoggerSettings}
    (h : layeredLogger logger options = some settings) :
    settings.api = options.api.or (logger.bind LoggerSettings.api) ∧
      settings.context = (logger.any LoggerSettings.context || options.context) := by
  obtain ⟨base, hb, rfl⟩ := Option.map_eq_some_iff.1 h
  cases logger with
  | none =>
    split at hb
    · cases hb
      exact ⟨rfl, rfl⟩
    · cases hb
  | some given =>
    have hg : given = base := by
      split at hb
      · exact Option.some.inj hb
      · exact Option.some.inj hb
    rw [← hg]
    exact ⟨rfl, rfl⟩

/-- Without a logger, nothing depends on how it would be. -/
theorem layer_without_logger (hc : config.logger = none) (ho : options.logger = false)
    (api : Option String)
    (context : Bool) : config.layer { options with api, context } = config.layer options := by
  simp only [layer, layeredLogger, hc, ho]
  rfl

end Config

/-- What a vocabulary takes from a document and from the options laid over it. -/
structure Layered (document : Document) (options : Options) (v : Vocabulary) : Prop where
  levels : ∃ given, options.levels.mapM Options.readLevel = .ok given ∧ ∀ severity,
    v.levels.get? severity = (lastAt? (given.map Prod.swap) severity).or
      (lastAt? ((document.levels.flatMap Entry.pairs).map Prod.swap) severity)
  attributes : ∃ given, options.attributes.mapM Options.readAttribute = .ok given ∧ ∀ key,
    v.attributes.get? key =
      (lastAt? given key).or (lastAt? (document.attributes.flatMap Entry.pairs) key)
  constants : ∀ name, name ∈ v.constants ↔ name ∈ document.constants ∨ name ∈ options.constants
  /-- An empty name, too, takes the place of the one in the document; it stands for the default. -/
  package : v.package = ((options.pkg.or document.pkg).filter (· ≠ "")).getD "slogx"
  logger : v.logger.isSome = (document.logger.isSome || options.logger)
  style : ∀ plan ∈ v.logger,
    plan.style.name = (options.api.or (document.logger.bind LoggerSettings.api)).getD "any"
  context : ∀ plan ∈ v.logger,
    plan.context = (document.logger.any LoggerSettings.context || options.context)

theorem layered_named {document : Document} {options : Options} {levels : List (String × Severity)}
    {attributes : List (String × String)} {styled : Option (LoggerSettings × ArgumentStyle)}
    (hl : options.levels.mapM Options.readLevel = .ok levels)
    (ha : options.attributes.mapM Options.readAttribute = .ok attributes)
    (hs : (document.toConfig.extended options levels attributes).Styled styled) :
    Layered document options
      ((document.toConfig.extended options levels attributes).named styled) := by
  have hplan :
      ∀ plan ∈ ((document.toConfig.extended options levels attributes).named styled).logger,
      ∃ entry ∈ styled, Config.layeredLogger document.logger options = some entry.1 ∧
        plan.style = entry.2 ∧ plan.context = entry.1.context := by
    intro plan hp
    obtain ⟨entry, he, rfl⟩ := Option.map_eq_some_iff.1 hp
    refine ⟨entry, he, ?_, Config.style_loggerPlan .., Config.context_loggerPlan ..⟩
    have hset := hs.settings
    rw [he] at hset
    exact hset.symm
  refine ⟨⟨levels, hl, fun severity => ?_⟩, ⟨attributes, ha, fun key => ?_⟩, fun name =>
    ?_, ?_, ?_, ?_, ?_⟩
  · rw [← lastAt?_append, ← List.map_append]
    exact SortedMap.get?_ofList ..
  · rw [← lastAt?_append]
    exact SortedMap.get?_ofList ..
  · rw [← List.mem_append]
    exact SortedSet.mem_ofList
  · exact Config.resolvePackage_eq _
  · have hsome := congrArg Option.isSome hs.settings
    rw [Option.isSome_map] at hsome
    rw [Config.named, Option.isSome_map, hsome]
    exact Config.isSome_layeredLogger
  · intro plan hp
    obtain ⟨entry, he, hset, hstyle, -⟩ := hplan plan hp
    have hname := LoggerSettings.resolveStyle_eq_ok.1 (hs.style entry he)
    rw [(Config.of_mem_layeredLogger hset).1] at hname
    rw [hstyle, hname]
  · intro plan hp
    obtain ⟨entry, -, hset, -, hcontext⟩ := hplan plan hp
    rw [hcontext]
    exact (Config.of_mem_layeredLogger hset).2

/-- A vocabulary is layered from its document and its options; and where neither asks for a logger,
it is no matter how they would have it, not even to whether there is a vocabulary. -/
theorem load_layered {given : Option WrittenDocument} {document : Document}
    (hd : Document.ofGiven given = .ok document) (options : Options) :
    (∀ v, load given options = .ok v → Layered document options v) ∧
      (document.logger = none → options.logger = false → ∀ api context,
        load given { options with api, context } = load given options) := by
  constructor
  · intro v hv
    rw [load_of_given hd, mapError_eq_ok, bind_eq_ok] at hv
    obtain ⟨config, hc, hr⟩ := hv
    obtain ⟨levels, hl, attributes, ha, rfl⟩ := Config.layer_eq_ok.1 hc
    obtain ⟨-, styled, hs, rfl⟩ := Config.resolve_eq_ok.1 hr
    exact layered_named hl ha hs
  · intro hlogger hoptions api context
    rw [load_of_given hd, load_of_given hd, Config.layer_without_logger hlogger hoptions]

/-- Two levels of one severity, and a logger. -/
def layeredText : String :=
  "\x7b\"pkg\":\"log\",\"levels\":[\x7b\"low\":-8,\"trace\":-8\x7d],\"logger\":\x7b\"api\":\"any\"\x7d\x7d"

/-- A third name for that severity, an empty package and another style. -/
def layeredOptions : Options where
  pkg := some ""
  levels := ["note:-8", "alert:12"]
  api := some "attr"

theorem spells_layeredText : Json.Spells layeredText.toList (.object [("pkg", .string "log"),
    ("levels", .array
      [.object [("low", .number (.integer (-8))), ("trace", .number (.integer (-8)))] true] true),
    ("logger", .object [("api", .string "any")] true)] true) := by
  have hnone : Json.Spaces [] := List.forall_mem_nil _
  have helement {json : Json} {t : List Char} (h : Json.Spelled (.value json) t) :
      Json.Spelled (.element json) t := by
    simpa using Json.Spelled.element hnone h hnone
  have hname (name : String) := Json.spelledString_printedString name
  have height : Json.Spelled (.element (.number (.integer (-8)))) _ :=
    helement (.number (Json.Numeral.wellFormed_ofInt (-8)) rfl)
  have hpair := helement (.object (.moreMembers hnone (hname "low") hnone height
    (.lastMember hnone (hname "trace") hnone height)))
  have hlevels := helement (.array (.lastElement hpair))
  have hlogger :=
    helement (.object (.lastMember hnone (hname "api") hnone (helement (.string (hname "any")))))
  have hmembers :=
    Json.Spelled.moreMembers hnone (hname "pkg") hnone (helement (.string (hname "log")))
    (.moreMembers hnone (hname "levels") hnone hlevels
      (.lastMember hnone (hname "logger") hnone hlogger))
  have htext : layeredText.toList = _ := String.toList_ofList
  rw [htext]
  exact helement (.object hmembers)

theorem ofGiven_layeredText : Document.ofGiven (some ⟨.json, layeredText⟩) = .ok
    { pkg := some "log"
      levels :=
        [.ofList [("low", ⟨-8, by decide, by decide⟩), ("trace", ⟨-8, by decide, by decide⟩)]]
      logger := some { api := some "any" } } := by
  have hb : Text.isBlankText layeredText = false := by decide
  rw [Document.ofGiven, Document.read, hb, if_neg Bool.false_ne_true, Document.readAs,
    Document.OfJson.read, Json.read_of_spells spells_layeredText]
  rfl

theorem load_layered_document_and_options :
    (∃ document v, Document.ofGiven (some ⟨.json, layeredText⟩) = .ok document ∧
      load (some ⟨.json, layeredText⟩) layeredOptions = .ok v ∧ Layered document layeredOptions v) ∧
    load none { layeredOptions with api := some "none", context := true } =
      load none layeredOptions := by
  have hnone : Document.ofGiven none = .ok {} := rfl
  refine ⟨?_, (load_layered hnone layeredOptions).2 rfl rfl (some "none") true⟩
  have hok : (load (some ⟨.json, layeredText⟩) layeredOptions).isOk = true := by
    rw [load_of_given ofGiven_layeredText]
    decide +kernel
  cases hv : load (some ⟨.json, layeredText⟩) layeredOptions with
  | error fault =>
    rw [hv] at hok
    cases hok
  | ok v =>
    exact ⟨_, v, ofGiven_layeredText, rfl, (load_layered ofGiven_layeredText layeredOptions).1 v hv⟩

end SlogHelpers
