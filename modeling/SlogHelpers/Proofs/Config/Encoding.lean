import SlogHelpers.Proofs.Config.Resolve
import SlogHelpers.Proofs.Options

/-!
Configurations written as options. Reading the options of a configuration gives it back, and options
laid over it come to the same as those options behind its own: what a document can say, options can
say.
-/
namespace SlogHelpers
open Fallible

def Options.merge (options more : Options) : Options where
  pkg := more.pkg.or options.pkg
  imports := options.imports ++ more.imports
  levels := options.levels ++ more.levels
  constants := options.constants ++ more.constants
  attributes := options.attributes ++ more.attributes
  logger := options.logger || more.logger
  api := more.api.or options.api
  context := options.context || more.context

theorem Options.merge_empty (options : Options) : options.merge {} = options := by
  obtain ⟨pkg, imports, levels, constants, attributes, logger, api, context⟩ := options
  simp [merge]

namespace Config

def toOptions (config : Config) : Options where
  pkg := config.pkg
  imports := config.imports
  levels := config.levels.map fun entry => entry.1 ++ ":" ++ entry.2.text
  constants := config.constants
  attributes := config.attributes.map fun entry => entry.1 ++ ":" ++ entry.2
  logger := config.logger.isSome
  api := config.logger.bind LoggerSettings.api
  context := config.logger.any LoggerSettings.context

/-- No name and no type has a colon, which would end it in an option. -/
structure ColonFree (config : Config) : Prop where
  levels : ∀ entry ∈ config.levels, ':' ∉ entry.1.toList
  attributes : ∀ entry ∈ config.attributes, ':' ∉ entry.1.toList ∧ ':' ∉ entry.2.toList

variable {config : Config}

theorem readLevels_toOptions (h : config.ColonFree) :
    config.toOptions.levels.mapM Options.readLevel = .ok config.levels := by
  refine mapM_map_eq_ok fun entry he =>
    Options.readLevel_eq_ok.2 ⟨entry.2.text, ?_, Severity.read_text entry.2⟩
  exact splitPair_eq_some.2 ⟨rfl, h.levels entry he, entry.2.not_mem_text rfl (by decide)⟩

theorem readAttributes_toOptions (h : config.ColonFree) :
    config.toOptions.attributes.mapM Options.readAttribute = .ok config.attributes := by
  refine mapM_map_eq_ok fun entry he => Options.readAttribute_eq_ok.2 ?_
  exact splitPair_eq_some.2 ⟨rfl, h.attributes entry he⟩

theorem layeredLogger_merge (config : Config) (options : Options) :
    layeredLogger none (config.toOptions.merge options) = layeredLogger config.logger options := by
  rw [layeredLogger, layeredLogger, Options.merge, toOptions]
  cases config.logger with
  | none =>
    cases options.logger with
    | false => rfl
    | true => simp [LoggerSettings.override]
  | some settings => cases options.logger <;> simp [LoggerSettings.override]

theorem layer_merge (h : config.ColonFree) (options : Options) :
    layer {} (config.toOptions.merge options) = config.layer options := by
  have hlevels : (config.toOptions.merge options).levels.mapM Options.readLevel =
      (options.levels.mapM Options.readLevel).map (config.levels ++ ·) := by
    rw [Options.merge, List.mapM_append, readLevels_toOptions h]
    rfl
  have hattributes : (config.toOptions.merge options).attributes.mapM Options.readAttribute =
      (options.attributes.mapM Options.readAttribute).map (config.attributes ++ ·) := by
    rw [Options.merge, List.mapM_append, readAttributes_toOptions h]
    rfl
  rw [layer, layer, hlevels, hattributes, layeredLogger_merge]
  cases options.levels.mapM Options.readLevel with
  | error fault => rfl
  | ok levels =>
    cases options.attributes.mapM Options.readAttribute with
    | error fault => rfl
    | ok attributes => simp [Except.map, Bind.bind, Except.bind, Options.merge, toOptions]

theorem layer_empty (config : Config) : config.layer {} = .ok config := by
  obtain ⟨pkg, imports, levels, constants, attributes, logger⟩ := config
  cases logger with
  | none => simp [layer, layeredLogger, pure, Except.pure, Bind.bind, Except.bind]
  | some settings =>
    simp [layer, layeredLogger, LoggerSettings.override, pure, Except.pure, Bind.bind, Except.bind]

/-- The options of a configuration say just what it says, alone and with more options behind
them. -/
theorem layer_toOptions (h : config.ColonFree) :
    ofOptions config.toOptions = .ok config ∧
      ∀ options, layer {} (config.toOptions.merge options) = config.layer options ∧
        (layer {} (config.toOptions.merge options) >>= resolve) =
          (config.layer options >>= resolve) := by
  constructor
  · rw [ofOptions, ← Options.merge_empty config.toOptions, layer_merge h, layer_empty]
  · intro options
    exact ⟨layer_merge h options, by rw [layer_merge h options]⟩

/-- Entries that repeat a severity and a key, the least severity, a name without characters and a
style that there is not. -/
def repeatingConfig : Config where
  levels := [("", ⟨-0x8000000000000000, by decide, by decide⟩),
    ("low", ⟨-0x8000000000000000, by decide, by decide⟩)]
  attributes := [("id", "int"), ("id", "map[string]int")]
  logger := some { api := some "none" }

theorem layer_toOptions_repeatingConfig :
    repeatingConfig.toOptions.levels = [":-9223372036854775808", "low:-9223372036854775808"] ∧
      repeatingConfig.ColonFree ∧ ofOptions repeatingConfig.toOptions = .ok repeatingConfig ∧
      ∀ options, layer {} (repeatingConfig.toOptions.merge options) =
        repeatingConfig.layer options ∧
        (layer {} (repeatingConfig.toOptions.merge options) >>= resolve) =
          (repeatingConfig.layer options >>= resolve) := by
  have h : repeatingConfig.ColonFree := ⟨by decide, by decide⟩
  exact ⟨by decide +kernel, h, layer_toOptions h⟩

end Config
end SlogHelpers
