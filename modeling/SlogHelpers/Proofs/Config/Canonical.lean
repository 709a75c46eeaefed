import SlogHelpers.Proofs.Config.Resolve
import SlogHelpers.Proofs.SortedMap
import SlogHelpers.Proofs.SortedSet

/-!
Vocabularies written back as configurations. Such a configuration says everything once, in order and
in full, and resolving it changes nothing: what a configuration names is a fixed point.
-/
namespace SlogHelpers

/-- The configuration that says what a vocabulary holds. The levels of its logger are not among
that: they follow from the others. -/
def Vocabulary.toConfig (v : Vocabulary) : Config where
  pkg := some v.package
  imports := v.imports.toList
  levels := v.levels.toList.map Prod.swap
  constants := v.constants.toList
  attributes := v.attributes.toList
  logger := v.logger.map fun plan => { api := some plan.style.name, context := plan.context }

namespace Config

variable {config : Config} {styled : Option (LoggerSettings × ArgumentStyle)} {v : Vocabulary}

/-- Of the settings of a logger, its plan keeps the context. -/
theorem loggerPlan_eq_self (levels : SortedMap Severity String) (settings : LoggerSettings)
    (style : ArgumentStyle) (api : Option String) :
    let plan := loggerPlan levels settings style
    loggerPlan levels { api, context := plan.context } plan.style = plan := by
  intro plan
  have hcontext : plan.context = settings.context := context_loggerPlan ..
  have hstyle : plan.style = style := style_loggerPlan ..
  rw [hcontext, hstyle]
  rfl

theorem package_ne_empty : (config.named styled).package ≠ "" := by
  intro h
  have hp := (resolvePackage_eq config).symm.trans h
  cases hf : config.pkg.filter (· ≠ "") with
  | none =>
    rw [hf] at hp
    exact absurd hp (by decide)
  | some name =>
    rw [hf] at hp
    have hne := (Option.filter_eq_some_iff.1 hf).2
    exact of_decide_eq_true hne hp

/-- Every name that counts is one of those that were checked. -/
theorem Worded.toConfig (h : config.Worded) : (config.named styled).toConfig.Worded where
  levels := by
    refine List.forall_mem_map.2 fun entry he => ?_
    obtain ⟨given, hgiven, rfl⟩ := List.mem_map.1 (SortedMap.mem_of_mem_ofList he)
    exact h.levels given hgiven
  attributes entry he := h.attributes entry (SortedMap.mem_of_mem_ofList he)
  constants name hn := h.constants name (SortedSet.mem_ofList.1 hn)

/-- The logger of the written-back configuration, with the style of the plan. -/
def styledPlan (plan : LoggerPlan) : LoggerSettings × ArgumentStyle :=
  ({ api := some plan.style.name, context := plan.context }, plan.style)

theorem styled_toConfig (v : Vocabulary) : v.toConfig.Styled (v.logger.map styledPlan) where
  settings := by
    rw [Option.map_map]
    rfl
  style := by
    rintro _ he
    obtain ⟨plan, -, rfl⟩ := Option.map_eq_some_iff.1 he
    exact LoggerSettings.resolveStyle_eq_ok.2 rfl

theorem named_toConfig (config : Config) (styled : Option (LoggerSettings × ArgumentStyle)) :
    let v := config.named styled
    v.toConfig.named (v.logger.map styledPlan) = v := by
  intro v
  have hlevels : SortedMap.ofList (v.toConfig.levels.map Prod.swap) = v.levels := by
    rw [Vocabulary.toConfig, List.map_map, Prod.swap_swap_eq, List.map_id]
    exact SortedMap.ofList_toList v.levels
  have hattributes : SortedMap.ofList v.toConfig.attributes = v.attributes :=
    SortedMap.ofList_toList v.attributes
  have hsome : (v.logger.map styledPlan).isSome = styled.isSome := by
    rw [Option.isSome_map]
    exact Option.isSome_map
  have hpackage : v.toConfig.resolvePackage = v.package := by
    rw [resolvePackage_eq, Vocabulary.toConfig, Option.filter_some,
      if_pos (decide_eq_true package_ne_empty)]
    rfl
  -- What is derived was derived before, from the same sections.
  have himports : SortedSet.ofList (v.toConfig.imports ++
      derivedImports (!v.levels.isEmpty) (!v.attributes.isEmpty) styled.isSome) = v.imports :=
    SortedSet.ofList_append_of_mem fun path hp =>
      SortedSet.mem_ofList.2 (List.mem_append_right _ hp)
  have hlogger : (v.logger.map styledPlan).map (fun entry => loggerPlan v.levels entry.1 entry.2) =
      v.logger := by
    change ((styled.map _).map styledPlan).map _ = styled.map _
    rw [Option.map_map, Option.map_map]
    refine Option.map_congr fun entry _ => ?_
    exact loggerPlan_eq_self v.levels entry.1 entry.2 _
  have hconstants : SortedSet.ofList v.toConfig.constants = v.constants :=
    SortedSet.ofList_toList v.constants
  rw [named, hlevels, hattributes, hsome, hpackage, himports, hlogger, hconstants]

/-- Whatever a configuration names, the configuration that says just that names it too. -/
theorem resolve_toConfig (h : config.resolve = .ok v) : v.toConfig.resolve = .ok v := by
  obtain ⟨hw, styled, -, rfl⟩ := resolve_eq_ok.1 h
  exact resolve_eq_ok.2 ⟨hw.toConfig, _, styled_toConfig _, (named_toConfig config styled).symm⟩

/-- Levels and attributes that are overridden, an import that is derived as well, a package and a
style that are left to their defaults. -/
def overriddenConfig : Config where
  pkg := some ""
  imports := ["time", "net/http"]
  levels := [("remark", 1), ("notice", 2), ("hint", 1)]
  constants := ["user_id", "trace_id", "user_id"]
  attributes := [("elapsed", "int"), ("cause", "error"), ("elapsed", "time.Duration")]
  logger := some { context := true }

theorem resolve_toConfig_overriddenConfig :
    ∃ v, overriddenConfig.resolve = .ok v ∧ v.toConfig.resolve = .ok v ∧
      v.toConfig.pkg = some "slogx" ∧
      v.toConfig.levels.map Prod.fst = ["hint", "notice"] ∧
      v.toConfig.logger = some { api := some "any", context := true } := by
  obtain ⟨v, hv, hp, hl, hg⟩ :
      ∃ v, overriddenConfig.resolve = .ok v ∧ v.toConfig.pkg = some "slogx" ∧
      v.toConfig.levels.map Prod.fst = ["hint", "notice"] ∧
      v.toConfig.logger = some { api := some "any", context := true } :=
    ⟨_, rfl, by decide +kernel, by decide +kernel, by decide +kernel⟩
  exact ⟨v, hv, resolve_toConfig hv, hp, hl, hg⟩

end Config
end SlogHelpers
