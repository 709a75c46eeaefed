import SlogHelpers.Config.Resolve
import SlogHelpers.Proofs.Fallible

/-!
When a configuration names a vocabulary, and which one: its style exists, its names are words, and
then every part of the vocabulary is a function of the configuration alone.
-/
namespace SlogHelpers

theorem ArgumentStyle.ofName?_eq_some {name : String} {style : ArgumentStyle} :
    ofName? name = some style ↔ name = style.name := by
  constructor
  · intro h
    rw [ofName?.eq_def] at h
    split at h
    · cases h; rfl
    · cases h; rfl
    · cases h
  · rintro rfl
    exact ofName?_name style

theorem ArgumentStyle.name_injective {style other : ArgumentStyle} (h : style.name = other.name) :
    style = other := by
  have hs := ofName?_name style
  rw [h, ofName?_name] at hs
  exact (Option.some.inj hs).symm

theorem LoggerSettings.resolveStyle_eq_ok {settings : LoggerSettings} {style : ArgumentStyle} :
    settings.resolveStyle = .ok style ↔ settings.api.getD "any" = style.name := by
  rw [resolveStyle]
  cases settings.api with
  | none =>
    constructor
    · intro h
      cases h
      rfl
    · intro h
      have hs : ArgumentStyle.any = style := ArgumentStyle.name_injective h
      rw [hs]
  | some name =>
    rw [Option.getD_some, ← ArgumentStyle.ofName?_eq_some]
    cases hf : ArgumentStyle.ofName? name with
    | none => simp [hf]
    | some found => simp [hf]

namespace Config

variable {config : Config} {v : Vocabulary}

theorem checkNames_eq_ok {kind : EntryKind} {names : List String} {u : PUnit} :
    checkNames kind names = .ok u ↔ ∀ name ∈ names, isWord name = true := by
  induction names with
  | nil => simp [checkNames]
  | cons name rest ih =>
    rw [checkNames, List.forall_mem_cons]
    by_cases hw : isWord name = true
    · rw [if_pos hw, ih]
      exact (and_iff_right hw).symm
    · simp [hw]

structure Worded (config : Config) : Prop where
  levels : ∀ entry ∈ config.levels, isWord entry.1 = true
  attributes : ∀ entry ∈ config.attributes, isWord entry.1 = true
  constants : ∀ name ∈ config.constants, isWord name = true

/-- The styled settings are those of the logger, where there is one. -/
structure Styled (config : Config) (styled : Option (LoggerSettings × ArgumentStyle)) : Prop where
  settings : styled.map Prod.fst = config.logger
  style : ∀ entry ∈ styled, entry.1.resolveStyle = .ok entry.2

theorem resolveStyle_eq_ok {styled : Option (LoggerSettings × ArgumentStyle)} :
    config.resolveStyle = .ok styled ↔ config.Styled styled := by
  rw [resolveStyle]
  cases hl : config.logger with
  | none =>
    constructor
    · intro h
      cases h
      exact ⟨hl.symm, nofun⟩
    · intro h
      have hs := h.settings
      rw [hl] at hs
      rw [Option.map_eq_none_iff.1 hs]
  | some settings =>
    rw [Fallible.bind_eq_ok]
    constructor
    · rintro ⟨style, hs, h⟩
      cases h
      exact ⟨hl.symm, by rintro _ ⟨⟩; exact hs⟩
    · intro h
      have hs := h.settings
      rw [hl] at hs
      obtain ⟨entry, rfl, rfl⟩ := Option.map_eq_some_iff.1 hs
      exact ⟨entry.2, h.style entry rfl, rfl⟩

theorem resolvePackage_eq (config : Config) :
    config.resolvePackage = (config.pkg.filter (· ≠ "")).getD "slogx" := by
  rw [resolvePackage.eq_def]
  split
  · next h => simp [h, defaultPackage]
  · next h => simp [h, defaultPackage, Option.filter_some]
  · next name hn h =>
    have hne : name ≠ "" := hn
    simp [h, Option.filter_some, hne]

theorem levels_loggerPlan (levels : SortedMap Severity String) (settings : LoggerSettings)
    (style : ArgumentStyle) :
    (loggerPlan levels settings style).levels =
      if levels.isEmpty then .ofList conventionalLevels else levels := by
  rw [loggerPlan]
  split
  · rfl
  · rfl

theorem style_loggerPlan (levels : SortedMap Severity String) (settings : LoggerSettings)
    (style : ArgumentStyle) :
    (loggerPlan levels settings style).style = style := by
  rw [loggerPlan]
  split
  · rfl
  · rfl

theorem context_loggerPlan (levels : SortedMap Severity String) (settings : LoggerSettings)
    (style : ArgumentStyle) :
    (loggerPlan levels settings style).context = settings.context := by
  rw [loggerPlan]
  split
  · rfl
  · rfl

/-- What the entries of a configuration name, once its logger has a style. -/
def named (config : Config) (styled : Option (LoggerSettings × ArgumentStyle)) : Vocabulary :=
  let levels := SortedMap.ofList (config.levels.map Prod.swap)
  let attributes := SortedMap.ofList config.attributes
  { package := config.resolvePackage
    imports := .ofList
      (config.imports ++ derivedImports (!levels.isEmpty) (!attributes.isEmpty) styled.isSome)
    levels
    constants := .ofList config.constants
    attributes
    logger := styled.map fun entry => loggerPlan levels entry.1 entry.2 }

theorem levels_of_named {styled : Option (LoggerSettings × ArgumentStyle)} {plan : LoggerPlan}
    (h : (config.named styled).logger = some plan) : plan.levels =
      if (config.named styled).levels.isEmpty then .ofList conventionalLevels
      else (config.named styled).levels := by
  obtain ⟨entry, -, rfl⟩ := Option.map_eq_some_iff.1 h
  exact levels_loggerPlan ..

theorem resolve_eq_ok :
    config.resolve = .ok v ↔
      config.Worded ∧ ∃ styled, config.Styled styled ∧ v = config.named styled := by
  rw [resolve]
  simp only [Fallible.bind_eq_ok, resolveStyle_eq_ok, checkNames_eq_ok, List.forall_mem_map]
  constructor
  · rintro ⟨styled, hs, ⟨⟩, hl, ⟨⟩, ha, ⟨⟩, hc, h⟩
    exact ⟨⟨hl, ha, hc⟩, styled, hs, (Except.ok.inj h).symm⟩
  · rintro ⟨hw, styled, hs, rfl⟩
    exact ⟨styled, hs, (), hw.levels, (), hw.attributes, (), hw.constants, rfl⟩

end Config
end SlogHelpers
