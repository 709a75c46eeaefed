import SlogHelpers.Proofs.Config.Canonical

/-!
Which configurations name a vocabulary, with which fault the others are refused, and what is derived
where there is a vocabulary. All entries are judged, those that a later one overrides as well, in
the order in which they are kept: levels, then attributes, then constants.
-/
namespace SlogHelpers
open Fallible

/-! ## Names and styles -/

/-- At least one character, and neither a colon nor white space. -/
def OneWord (name : String) : Prop :=
  name ≠ "" ∧ ∀ c ∈ name.toList, c ≠ ':' ∧ Text.isBlank c = false

theorem isWord_iff {name : String} : isWord name = true ↔ OneWord name := by
  simp [isWord, OneWord]

instance (name : String) : Decidable (OneWord name) := decidable_of_iff _ isWord_iff

def styleNames : List String := ["any", "attr"]

theorem ArgumentStyle.ofName?_eq_none {name : String} : ofName? name = none ↔
    name ∉ styleNames := by
  rw [ofName?.eq_def]
  split <;> simp_all [styleNames]

namespace Config

variable {config : Config} {v : Vocabulary}

def entryNames (config : Config) : List (EntryKind × String) :=
  config.levels.map (fun entry => (.level, entry.1)) ++
    config.attributes.map (fun entry => (.attr, entry.1)) ++
    config.constants.map fun name => (.const, name)

/-- What the logger asks for, if there is no such style. -/
def unknownStyle? (config : Config) : Option String :=
  (config.logger.bind LoggerSettings.api).filter fun name => name ∉ styleNames

/-- The first of the names that is no word, as a fault. -/
def firstBadName? (names : List (EntryKind × String)) : Option ConfigFault :=
  (names.find? fun entry => ¬ OneWord entry.2).map fun entry => .invalidName entry.1 entry.2

/-- The first fault: a style that there is not comes before all names. -/
def firstFault? (config : Config) : Option ConfigFault :=
  (config.unknownStyle?.map ConfigFault.invalidApi).or (firstBadName? config.entryNames)

/-! ## The first fault -/

theorem firstBadName?_append (names more : List (EntryKind × String)) :
    firstBadName? (names ++ more) = (firstBadName? names).or (firstBadName? more) := by
  rw [firstBadName?, List.find?_append, Option.map_or]
  rfl

theorem fault?_checkNames (kind : EntryKind) (names : List String) :
    fault? (checkNames kind names) = firstBadName? (names.map fun name => (kind, name)) := by
  induction names with
  | nil => rfl
  | cons name rest ih =>
    rw [checkNames, List.map_cons, firstBadName?]
    by_cases hw : isWord name = true
    · rw [if_pos hw, List.find?_cons_of_neg (by simpa using isWord_iff.1 hw)]
      exact ih
    · have hn : ¬ OneWord name := fun h => hw (isWord_iff.2 h)
      rw [if_neg hw, List.find?_cons_of_pos (by simpa using hn)]
      rfl

theorem fault?_resolveStyle (config : Config) :
    fault? config.resolveStyle = config.unknownStyle?.map ConfigFault.invalidApi := by
  rw [resolveStyle, unknownStyle?]
  cases config.logger with
  | none => rfl
  | some settings =>
    have hstyle : fault? settings.resolveStyle =
        (settings.api.filter (· ∉ styleNames)).map ConfigFault.invalidApi := by
      rw [LoggerSettings.resolveStyle]
      cases settings.api with
      | none => rfl
      | some name =>
        cases hs : ArgumentStyle.ofName? name with
        | none =>
          rw [Option.filter_some, if_pos (decide_eq_true (ArgumentStyle.ofName?_eq_none.1 hs))]
          simp [hs, fault?]
        | some style =>
          have hn : name ∈ styleNames := by
            by_contra hn
            rw [ArgumentStyle.ofName?_eq_none.2 hn] at hs
            cases hs
          rw [Option.filter_some, if_neg (by simpa using hn)]
          simp [hs, fault?]
    have hpure (style : ArgumentStyle) :
        fault? (pure (some (settings, style)) :
          Except ConfigFault (Option (LoggerSettings × ArgumentStyle))) = none :=
      rfl
    rw [fault?_bind hpure, Option.or_none, hstyle, Option.bind_some]

theorem fault?_resolve (config : Config) : fault? config.resolve = config.firstFault? := by
  have hlevels : firstBadName? (config.levels.map fun entry => (.level, entry.1)) =
      fault? (checkNames .level (config.levels.map (·.1))) := by
    rw [fault?_checkNames, List.map_map]
    rfl
  have hattributes : firstBadName? (config.attributes.map fun entry => (.attr, entry.1)) =
      fault? (checkNames .attr (config.attributes.map (·.1))) := by
    rw [fault?_checkNames, List.map_map]
    rfl
  rw [firstFault?, entryNames, firstBadName?_append, firstBadName?_append, Option.or_assoc,
    ← fault?_resolveStyle, hlevels, hattributes, ← fault?_checkNames .const]
  exact fault?_bind fun _ => fault?_bind fun _ => fault?_bind fun _ =>
    (fault?_bind fun _ => rfl).trans Option.or_none

/-- The logger asks for no style or for one of the two that there are, and all names are words. -/
structure Acceptable (config : Config) : Prop where
  style : ∀ settings ∈ config.logger, settings.api = none ∨ settings.api = some "any" ∨
    settings.api = some "attr"
  levels : ∀ entry ∈ config.levels, OneWord entry.1
  attributes : ∀ entry ∈ config.attributes, OneWord entry.1
  constants : ∀ name ∈ config.constants, OneWord name

theorem unknownStyle?_eq_none : config.unknownStyle? = none ↔
    ∀ settings ∈ config.logger, settings.api = none ∨ settings.api = some "any" ∨
      settings.api = some "attr" := by
  rw [unknownStyle?]
  cases config.logger with
  | none => simp
  | some settings => cases h : settings.api <;> simp [h, styleNames, or_iff_not_imp_left]

theorem firstFault?_eq_none : config.firstFault? = none ↔ config.Acceptable := by
  have hnames : firstBadName? config.entryNames = none ↔
      ∀ entry ∈ config.entryNames, OneWord entry.2 := by
    simp [firstBadName?]
  rw [firstFault?, Option.or_eq_none_iff, Option.map_eq_none_iff, unknownStyle?_eq_none,
    hnames, entryNames]
  simp only [List.forall_mem_append, List.forall_mem_map]
  constructor
  · rintro ⟨hs, ⟨hl, ha⟩, hc⟩
    exact ⟨hs, hl, ha, hc⟩
  · intro h
    exact ⟨h.style, ⟨h.levels, h.attributes⟩, h.constants⟩

/-! ## What is derived -/

/-- What a vocabulary holds beyond the entries of its configuration. -/
structure Derived (config : Config) (v : Vocabulary) : Prop where
  /-- Each section has its imports, and there are no others but those that are given. -/
  imports : ∀ path, path ∈ v.imports ↔ path ∈ config.imports ∨
    (path = "log/slog" ∧
      (v.levels.isEmpty = false ∨ v.attributes.isEmpty = false ∨ v.logger.isSome = true)) ∨
    (path ∈ ["fmt", "strings"] ∧ v.levels.isEmpty = false) ∨
    (path ∈ ["context", "runtime", "time"] ∧ v.logger.isSome = true)
  levels : v.levels.isEmpty = config.levels.isEmpty
  attributes : v.attributes.isEmpty = config.attributes.isEmpty
  logger : v.logger.isSome = config.logger.isSome
  /-- Without levels of its own the logger has the conventional ones. -/
  loggerLevels : ∀ plan ∈ v.logger, plan.levels.isEmpty = false ∧
    (v.levels.isEmpty = false → plan.levels = v.levels) ∧
    (v.levels.isEmpty = true → plan.levels.toList.map (fun entry => (entry.1.toInt, entry.2)) =
      [(-4, "debug"), (0, "info"), (4, "warn"), (8, "error")])
  package : v.package ≠ ""

theorem mem_derivedImports {levels attributes logger : Bool} {path : String} :
    path ∈ derivedImports levels attributes logger ↔
      (path = "log/slog" ∧ (levels = true ∨ attributes = true ∨ logger = true)) ∨
      (path ∈ ["fmt", "strings"] ∧ levels = true) ∨
        (path ∈ ["context", "runtime", "time"] ∧ logger = true) := by
  cases levels <;> cases attributes <;> cases logger <;> simp [derivedImports, or_assoc]

theorem derived_named {styled : Option (LoggerSettings × ArgumentStyle)}
    (hs : config.Styled styled) :
    config.Derived (config.named styled) where
  imports path := by
    have hsome : (config.named styled).logger.isSome = styled.isSome := Option.isSome_map
    have hmem : path ∈ (config.named styled).imports ↔ path ∈ config.imports ∨
        path ∈ derivedImports (!(config.named styled).levels.isEmpty)
          (!(config.named styled).attributes.isEmpty)
          styled.isSome :=
      SortedSet.mem_ofList.trans List.mem_append
    rw [hmem, mem_derivedImports, hsome, Bool.not_eq_true', Bool.not_eq_true']
  levels := by
    have hempty : (config.levels.map Prod.swap).isEmpty = config.levels.isEmpty := List.isEmpty_map
    exact (SortedMap.isEmpty_ofList _).trans hempty
  attributes := SortedMap.isEmpty_ofList _
  logger := by
    rw [← hs.settings, Option.isSome_map]
    exact Option.isSome_map
  loggerLevels plan hp := by
    rw [levels_of_named hp]
    cases he : (config.named styled).levels.isEmpty with
    | true => exact ⟨rfl, by simp, fun _ => rfl⟩
    | false => exact ⟨he, fun _ => rfl, by simp⟩
  package := package_ne_empty

/-- A configuration names a vocabulary exactly if it is acceptable; if it is not, the fault is the
first one; and if it is, the vocabulary holds what is derived from the configuration. -/
theorem resolve_outcome (config : Config) :
    ((∃ v, config.resolve = .ok v) ↔ config.Acceptable) ∧
      (∀ fault, config.resolve = .error fault ↔ config.firstFault? = some fault) ∧
      ∀ v, config.resolve = .ok v → config.Derived v := by
  refine ⟨?_, fun fault => ?_, fun v hv => ?_⟩
  · rw [← fault?_eq_none, fault?_resolve, firstFault?_eq_none]
  · rw [← fault?_eq_some, fault?_resolve]
  · obtain ⟨-, styled, hs, rfl⟩ := resolve_eq_ok.1 hv
    exact derived_named hs

/-- Bad names of each kind; the first of them is overridden. -/
def misnamedConfig : Config where
  levels := [("a b", 1), ("notice", 1)]
  attributes := [("", "int")]
  constants := ["x:y"]
  logger := some { api := some "attr" }

theorem resolve_outcome_misnamed_and_overridden :
    misnamedConfig.resolve = .error (.invalidName .level "a b") ∧
      ∃ v, overriddenConfig.resolve = .ok v ∧ overriddenConfig.Derived v := by
  obtain ⟨hok, -, hderived⟩ := resolve_outcome overriddenConfig
  have hwords : overriddenConfig.Acceptable := ⟨by decide, by decide, by decide, by decide⟩
  obtain ⟨v, hv⟩ := hok.2 hwords
  exact ⟨((resolve_outcome misnamedConfig).2.1 _).2 (by decide), v, hv, hderived v hv⟩

end Config
end SlogHelpers
