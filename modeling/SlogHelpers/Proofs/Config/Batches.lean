import SlogHelpers.Proofs.Config.Applying
import SlogHelpers.Proofs.Config.Encoding

/-!
Options laid over a configuration in two batches, or merged and all at once. The one succeeds if and
only if the other does, and both come to the same, with one exception: what the first batch says of
a logger is gone before the second batch calls for one.
-/
namespace SlogHelpers
open Fallible

theorem LoggerSettings.override_override (settings : LoggerSettings) (first second : Options) :
    (settings.override first).override second = settings.override (first.merge second) := by
  simp [override, Options.merge, Option.or_assoc, Bool.or_assoc]

/-- The options tell of a logger whatever other options tell of it. -/
structure Options.Retells (options other : Options) : Prop where
  context : other.context = true → options.context = true
  api : other.api.isSome = true → options.api.isSome = true

namespace Config

variable {config merged next : Config} {options first second : Options}

/-! ## The logger -/

variable {logger : Option LoggerSettings}

theorem layeredLogger_of_called (h : logger.isSome = true ∨ options.logger = true) :
    layeredLogger logger options = some ((logger.getD {}).override options) := by
  rw [layeredLogger]
  cases logger with
  | none =>
    have hasked : options.logger = true := by simpa using h
    rw [hasked]
    rfl
  | some settings => cases options.logger <;> rfl

theorem layeredLogger_uncalled (h : options.logger = false) :
    layeredLogger none options = none := by
  rw [layeredLogger, h]
  rfl

/-- Only the second batch calls for the logger, and the first has told something of it that the
second does not override. -/
structure Belated (config : Config) (first second : Options) : Prop where
  absent : config.logger = none
  unasked : first.logger = false
  asked : second.logger = true
  told : first.context = true ∨ (first.api.isSome = true ∧ second.api = none)

/-- A logger that is there takes both batches as it takes one. -/
theorem layeredLogger_merge_of_called (h : logger.isSome = true ∨ first.logger = true) :
    layeredLogger (layeredLogger logger first) second =
      layeredLogger logger (first.merge second) := by
  have hmerged : logger.isSome = true ∨ (first.merge second).logger = true :=
    h.imp_right fun hasked => by rw [Options.merge, hasked, Bool.true_or]
  rw [layeredLogger_of_called h, layeredLogger_of_called (.inl rfl),
    layeredLogger_of_called hmerged, Option.getD_some, LoggerSettings.override_override]

theorem layeredLogger_merge_of_absent (hfirst : first.logger = false)
    (hsecond : second.logger = true) :
    layeredLogger (layeredLogger none first) second =
        some { api := second.api, context := second.context } ∧
      layeredLogger none (first.merge second) =
        some { api := second.api.or first.api, context := first.context || second.context } := by
  have hmerged : (first.merge second).logger = true := by rw [Options.merge, hsecond, Bool.or_true]
  rw [layeredLogger_uncalled hfirst, layeredLogger_of_called (.inr hsecond),
    layeredLogger_of_called (.inr hmerged)]
  simp [LoggerSettings.override, Options.merge]

theorem retells_iff :
    some ({ api := second.api, context := second.context } : LoggerSettings) =
        some { api := second.api.or first.api, context := first.context || second.context } ↔
      second.Retells first := by
  have hapi : second.api = second.api.or first.api ↔
      (first.api.isSome = true → second.api.isSome = true) := by
    cases second.api with
    | none => cases first.api <;> simp
    | some api => simp
  have hcontext : second.context = (first.context || second.context) ↔
      (first.context = true → second.context = true) := by
    cases first.context <;> cases second.context <;> decide
  rw [Option.some.injEq, LoggerSettings.mk.injEq, hapi, hcontext]
  exact ⟨fun h => ⟨h.2, h.1⟩, fun h => ⟨h.api, h.context⟩⟩

theorem layeredLogger_merge_of_not_belated (h : ¬ config.Belated first second) :
    layeredLogger (layeredLogger config.logger first) second =
      layeredLogger config.logger (first.merge second) := by
  by_cases hcalled : config.logger.isSome = true ∨ first.logger = true
  · exact layeredLogger_merge_of_called hcalled
  obtain ⟨habsent, hfirst⟩ : config.logger = none ∧ first.logger = false := by simpa using hcalled
  rw [habsent]
  cases hsecond : second.logger with
  | false =>
    have hmerged : (first.merge second).logger = false := by
      rw [Options.merge, hfirst, hsecond, Bool.or_false]
    rw [layeredLogger_uncalled hfirst, layeredLogger_uncalled hsecond,
      layeredLogger_uncalled hmerged]
  | true =>
    -- The second batch alone calls for the logger, so the first has told nothing that it does not
    -- tell again.
    obtain ⟨hcontext, hapi⟩ := not_or.1 fun told => h ⟨habsent, hfirst, hsecond, told⟩
    have hretells : second.Retells first :=
      ⟨fun hc => absurd hc hcontext, fun hs => Option.isSome_iff_ne_none.2 fun hn => hapi ⟨hs, hn⟩⟩
    obtain ⟨hboth, hmerged⟩ := layeredLogger_merge_of_absent hfirst hsecond
    rw [hboth, hmerged]
    exact retells_iff.2 hretells

/-! ## The whole configuration -/

theorem run_apply_eq_ok : (apply options).run config = (.ok (), next) ↔
    config.layer options = .ok next := by
  rw [run_apply]
  cases config.layer options with
  | error fault => exact iff_of_false nofun nofun
  | ok laid =>
    constructor
    · intro h
      cases h
      rfl
    · intro h
      cases h
      rfl

/-- Lays the first batch over the configuration, and then the second one. -/
def applyBoth (first second : Options) : ExceptT ConfigFault (StateM Config) Unit := do
  apply first
  apply second

theorem run_applyBoth_eq_ok :
    (applyBoth first second).run config = (.ok (), next) ↔
      ∃ between, config.layer first = .ok between ∧ between.layer second = .ok next := by
  rw [applyBoth]
  cases hfirst : config.layer first with
  | error fault =>
    have hrun : (apply first).run config = (.error fault, config) := by rw [run_apply, hfirst]
    rw [run_bind_of_error hrun]
    exact iff_of_false nofun nofun
  | ok between =>
    rw [run_bind_of_ok (run_apply_eq_ok.2 hfirst), run_apply_eq_ok]
    simp

/-- In two batches as at once, but for the logger. -/
theorem extended_extended (config : Config) (first second : Options)
    (levels levels' : List (String × Severity)) (attributes attributes' : List (String × String)) :
    (config.extended first levels attributes).extended second levels' attributes' =
      { config.extended (first.merge second) (levels ++ levels') (attributes ++ attributes') with
        logger := layeredLogger (layeredLogger config.logger first) second } := by
  simp [extended, Options.merge, Option.or_assoc, List.append_assoc]

theorem layer_layer_eq_ok :
    (∃ between, config.layer first = .ok between ∧ between.layer second = .ok next) ↔
      ∃ merged, config.layer (first.merge second) = .ok merged ∧
        next =
          { merged with logger := layeredLogger (layeredLogger config.logger first) second } := by
  constructor
  · rintro ⟨between, hbetween, hnext⟩
    obtain ⟨levels, hl, attributes, ha, rfl⟩ := layer_eq_ok.1 hbetween
    obtain ⟨levels', hl', attributes', ha', rfl⟩ := layer_eq_ok.1 hnext
    have hmerged : config.layer (first.merge second) =
        .ok
          (config.extended (first.merge second) (levels ++ levels') (attributes ++ attributes')) :=
      layer_eq_ok.2 ⟨_, mapM_append_eq_ok.2 ⟨_, hl, _, hl', rfl⟩, _,
        mapM_append_eq_ok.2 ⟨_, ha, _, ha', rfl⟩, rfl⟩
    exact ⟨_, hmerged, extended_extended config first second levels levels' attributes attributes'⟩
  · rintro ⟨merged, hmerged, rfl⟩
    obtain ⟨_, hlevels, _, hattributes, rfl⟩ := layer_eq_ok.1 hmerged
    obtain ⟨levels, hl, levels', hl', rfl⟩ := mapM_append_eq_ok.1 hlevels
    obtain ⟨attributes, ha, attributes', ha', rfl⟩ := mapM_append_eq_ok.1 hattributes
    refine ⟨_, layer_eq_ok.2 ⟨levels, hl, attributes, ha, rfl⟩,
      layer_eq_ok.2 ⟨levels', hl', attributes', ha', ?_⟩⟩
    exact (extended_extended config first second levels levels' attributes attributes').symm

/-- What two batches come to, against both of them at once. -/
structure Batched (config : Config) (first second : Options) (merged next : Config) : Prop where
  equal : ¬ config.Belated first second → next = merged
  /-- A belated logger has no more than the second batch tells of it. -/
  belated : config.Belated first second →
    merged.logger =
      some { api := second.api.or first.api, context := first.context || second.context } ∧
      next = { merged with logger := some { api := second.api, context := second.context } }
  /-- So the two differ unless the second batch tells all again. -/
  equal_iff : next = merged ↔ (config.Belated first second → second.Retells first)

theorem batched_of_layer (hmerged : config.layer (first.merge second) = .ok merged) :
    config.Batched first second merged
      { merged with logger := layeredLogger (layeredLogger config.logger first) second } := by
  obtain ⟨levels, -, attributes, -, rfl⟩ := layer_eq_ok.1 hmerged
  by_cases h : config.Belated first second
  · obtain ⟨hboth, hlogger⟩ := layeredLogger_merge_of_absent h.unasked h.asked
    rw [← h.absent] at hboth hlogger
    refine ⟨fun hnot => absurd h hnot, fun _ => ⟨hlogger, by rw [hboth]⟩, ?_⟩
    rw [forall_prop_of_true h, ← retells_iff, ← hboth, ← hlogger]
    exact ⟨congrArg logger, fun he => by rw [he]; rfl⟩
  · have hequal : ({ config.extended (first.merge second) levels attributes with
        logger := layeredLogger (layeredLogger config.logger first) second } : Config) =
        config.extended (first.merge second) levels attributes := by
      rw [layeredLogger_merge_of_not_belated h]
      rfl
    exact ⟨fun _ => hequal, fun hb => absurd hb h, iff_of_true hequal fun hb => absurd hb h⟩

/-- Two batches of options succeed one after the other if and only if their merge does, and then
both ways come to the same configuration, but for what the first batch tells of a logger that comes
with the second. -/
theorem applyBoth_merge (config : Config) (first second : Options) :
    ((∃ merged, (apply (first.merge second)).run config = (.ok (), merged)) ↔
        ∃ next, (applyBoth first second).run config = (.ok (), next)) ∧
      ∀ merged next, (apply (first.merge second)).run config = (.ok (), merged) →
        (applyBoth first second).run config = (.ok (), next) →
          config.Batched first second merged next := by
  simp only [run_apply_eq_ok, run_applyBoth_eq_ok, layer_layer_eq_ok]
  constructor
  · exact ⟨fun ⟨merged, hmerged⟩ => ⟨_, merged, hmerged, rfl⟩, fun ⟨_, merged, hmerged, _⟩ =>
      ⟨merged, hmerged⟩⟩
  · rintro merged next hmerged ⟨laid, hlaid, rfl⟩
    obtain rfl : merged = laid := Except.ok.inj (hmerged.symm.trans hlaid)
    exact batched_of_layer hmerged

def tellingOptions : Options where
  levels := ["notice:1"]
  api := some "attr"
  context := true

def callingOptions : Options where
  pkg := some "log"
  levels := ["alert:9"]
  logger := true

/-- The logger of either batch behind the other, over a configuration that has none. -/
theorem applyBoth_merge_tellingOptions :
    (∃ merged next, (apply (tellingOptions.merge callingOptions)).run {} = (.ok (), merged) ∧
      (applyBoth tellingOptions callingOptions).run {} = (.ok (), next) ∧
      merged.logger = some { api := some "attr", context := true } ∧
      next = { merged with logger := some {} } ∧ next ≠ merged) ∧
    ∃ merged next, (apply (callingOptions.merge tellingOptions)).run {} = (.ok (), merged) ∧
      (applyBoth callingOptions tellingOptions).run {} = (.ok (), next) ∧
      merged.logger = some { api := some "attr", context := true } ∧ next = merged := by
  obtain ⟨hsucceeds, hbatched⟩ := applyBoth_merge {} tellingOptions callingOptions
  obtain ⟨hsucceeds', hbatched'⟩ := applyBoth_merge {} callingOptions tellingOptions
  constructor
  · have hbelated : Config.Belated {} tellingOptions callingOptions := ⟨rfl, rfl, rfl, .inl rfl⟩
    have hmerged : (apply (tellingOptions.merge callingOptions)).run {} =
        (.ok (), Config.extended {} (tellingOptions.merge callingOptions)
          [("notice", 1), ("alert", 9)] []) :=
      run_apply_eq_ok.2 (by decide +kernel)
    obtain ⟨next, hnext⟩ := hsucceeds.1 ⟨_, hmerged⟩
    have h := hbatched _ next hmerged hnext
    obtain ⟨hlogger, hlost⟩ := h.belated hbelated
    have hdiffer : next ≠ _ :=
      fun he => absurd ((h.equal_iff.1 he hbelated).context rfl) (by decide)
    exact ⟨_, next, hmerged, hnext, hlogger, hlost, hdiffer⟩
  · have hmerged : (apply (callingOptions.merge tellingOptions)).run {} =
        (.ok (), Config.extended {} (callingOptions.merge tellingOptions)
          [("alert", 9), ("notice", 1)] []) :=
      run_apply_eq_ok.2 (by decide +kernel)
    obtain ⟨next, hnext⟩ := hsucceeds'.1 ⟨_, hmerged⟩
    have hequal := (hbatched' _ next hmerged hnext).equal fun h => by cases h.unasked
    exact ⟨_, next, hmerged, hnext, rfl, hequal⟩

end Config
end SlogHelpers
