import SlogHelpers.Generate
import SlogHelpers.Proofs.Config.Canonical
import SlogHelpers.Proofs.Rearrangement

/-!
The order of the entries of a configuration counts only among levels of one severity and among
attributes of one key. Whatever else is moved, the vocabulary stays the same, and so does the file.
-/
namespace SlogHelpers

/-! ## Rearranged entries -/

namespace SortedMap

variable {κ α : Type} [LT κ] [DecidableLT κ] [LE κ] [Std.IsLinearOrder κ] [Std.LawfulOrderLT κ]
  [DecidableEq κ]

/-- The map of a list depends on nothing but the entries of each key. -/
theorem ofList_eq_of_filter {entries others : List (κ × α)}
    (h : ∀ k, entries.filter (·.1 = k) = others.filter (·.1 = k)) :
    ofList entries = ofList others := by
  refine ext fun k => ?_
  rw [get?_ofList, get?_ofList, Lists.lastAt?, Lists.lastAt?, h]

theorem ofList_rearranges {entries others : List (κ × α)} (h : Rearranges Prod.fst entries others) :
    ofList entries = ofList others :=
  ofList_eq_of_filter h.filter_eq

theorem ofList_rearranges_swap {entries others : List (α × κ)}
    (h : Rearranges Prod.snd entries others) :
    ofList (entries.map Prod.swap) = ofList (others.map Prod.swap) := by
  refine ofList_eq_of_filter fun k => ?_
  rw [List.filter_map, List.filter_map]
  exact congrArg (List.map Prod.swap) (h.filter_eq k)

end SortedMap

theorem SortedSet.ofList_eq_of_mem_iff {κ : Type} [LT κ] [DecidableLT κ] [LE κ]
    [Std.IsLinearOrder κ]
    [Std.LawfulOrderLT κ] {ks others : List κ} (h : ∀ k, k ∈ ks ↔ k ∈ others) :
    ofList ks = ofList others := by
  refine ext fun k => ?_
  rw [mem_ofList, mem_ofList, h]

/-! ## The order of a vocabulary -/

def codePoints (s : String) : List Nat := s.toList.map Char.toNat

theorem codePoints_lt {a b : String} (h : a < b) : codePoints a < codePoints b :=
  List.map_lt (fun _ _ hc => hc) h

/-- Names in the lexicographic order of their code points, levels in the numeric order of their
severities. -/
structure Vocabulary.Ascending (v : Vocabulary) : Prop where
  imports : (v.imports.toList.map codePoints).Pairwise (· < ·)
  constants : (v.constants.toList.map codePoints).Pairwise (· < ·)
  attributes : (v.attributes.keys.map codePoints).Pairwise (· < ·)
  levels : (v.levels.keys.map Severity.toInt).Pairwise (· < ·)
  logger : ∀ plan ∈ v.logger, (plan.levels.keys.map Severity.toInt).Pairwise (· < ·)

theorem severities_ascending (levels : SortedMap Severity String) :
    (levels.keys.map Severity.toInt).Pairwise (· < ·) :=
  List.pairwise_map.2 (List.pairwise_map.2 (levels.ascending.imp Severity.lt_iff.1))

theorem Vocabulary.ascending (v : Vocabulary) : v.Ascending where
  imports := List.pairwise_map.2 (v.imports.ascending.imp codePoints_lt)
  constants := List.pairwise_map.2 (v.constants.ascending.imp codePoints_lt)
  attributes := List.pairwise_map.2 (List.pairwise_map.2 (v.attributes.ascending.imp codePoints_lt))
  levels := severities_ascending v.levels
  logger plan _ := severities_ascending plan.levels

/-! ## Rearranged configurations -/

namespace Config

variable {config other : Config}

/-- The two configurations differ at most in the order of what they say, and in how often they say
what counts only once. -/
structure Rearranged (config other : Config) : Prop where
  pkg : config.pkg = other.pkg
  imports : ∀ path, path ∈ config.imports ↔ path ∈ other.imports
  levels : Rearranges Prod.snd config.levels other.levels
  constants : ∀ name, name ∈ config.constants ↔ name ∈ other.constants
  attributes : Rearranges Prod.fst config.attributes other.attributes
  logger : config.logger = other.logger

theorem Rearranged.worded (h : config.Rearranged other) : config.Worded ↔ other.Worded := by
  constructor
  · intro hw
    exact ⟨fun entry he => hw.levels entry ((h.levels.mem_iff entry).2 he),
      fun entry he => hw.attributes entry ((h.attributes.mem_iff entry).2 he),
      fun name hn => hw.constants name ((h.constants name).2 hn)⟩
  · intro hw
    exact ⟨fun entry he => hw.levels entry ((h.levels.mem_iff entry).1 he),
      fun entry he => hw.attributes entry ((h.attributes.mem_iff entry).1 he),
      fun name hn => hw.constants name ((h.constants name).1 hn)⟩

theorem Rearranged.styled (h : config.Rearranged other)
    (styled : Option (LoggerSettings × ArgumentStyle)) :
    config.Styled styled ↔ other.Styled styled := by
  constructor
  · intro hs
    exact ⟨hs.settings.trans h.logger, hs.style⟩
  · intro hs
    exact ⟨hs.settings.trans h.logger.symm, hs.style⟩

theorem Rearranged.named (h : config.Rearranged other)
    (styled : Option (LoggerSettings × ArgumentStyle)) :
    config.named styled = other.named styled := by
  have himports (derived : List String) :
      SortedSet.ofList (config.imports ++ derived) =
        SortedSet.ofList (other.imports ++ derived) := by
    refine SortedSet.ofList_eq_of_mem_iff fun path => ?_
    rw [List.mem_append, List.mem_append, h.imports]
  rw [Config.named, Config.named, SortedMap.ofList_rearranges_swap h.levels,
    SortedMap.ofList_rearranges h.attributes, SortedSet.ofList_eq_of_mem_iff h.constants, himports,
    resolvePackage_eq, resolvePackage_eq, h.pkg]

theorem Rearranged.resolve_eq_ok (h : config.Rearranged other) {v : Vocabulary} :
    config.resolve = .ok v ↔ other.resolve = .ok v := by
  simp only [Config.resolve_eq_ok, h.worded, h.styled, h.named]

def file (config : Config) : Except Fault String := config.resolve.mapError .config >>= emitFile

/-- Of two rearranged configurations either none names a vocabulary or both name the same one, which
is met in ascending order and then has the same file or the same fault. -/
theorem resolve_rearranged (h : config.Rearranged other) :
    ((∃ fault, config.resolve = .error fault) ∧ ∃ fault, other.resolve = .error fault) ∨
      ∃ v, config.resolve = .ok v ∧ other.resolve = .ok v ∧ v.Ascending ∧
        config.file = other.file := by
  obtain ⟨fault, hf⟩ | ⟨v, hv⟩ := Fallible.ok_or_error config.resolve
  · obtain ⟨fault', hf'⟩ | ⟨v, hv⟩ := Fallible.ok_or_error other.resolve
    · exact .inl ⟨⟨fault, hf⟩, fault', hf'⟩
    · have hc := h.resolve_eq_ok.2 hv
      rw [hf] at hc
      cases hc
  · have ho := h.resolve_eq_ok.1 hv
    refine .inr ⟨v, hv, ho, v.ascending, ?_⟩
    rw [file, file, hv, ho]

/-- The overridden configuration with some entries moved, and its sets told otherwise. -/
def movedConfig : Config :=
  { overriddenConfig with
    imports := ["net/http", "time", "time"]
    levels := [("notice", 2), ("remark", 1), ("hint", 1)]
    constants := ["trace_id", "user_id"]
    attributes := [("elapsed", "int"), ("elapsed", "time.Duration"), ("cause", "error")] }

theorem resolve_rearranged_movedConfig :
    overriddenConfig.Rearranged movedConfig ∧
      ∃ v source, overriddenConfig.resolve = .ok v ∧ movedConfig.resolve = .ok v ∧ v.Ascending ∧
        overriddenConfig.file = .ok source ∧ movedConfig.file = .ok source := by
  have hmoved : overriddenConfig.Rearranged movedConfig :=
    { pkg := rfl
      imports := by simp [overriddenConfig, movedConfig, or_comm]
      levels := ⟨(Equiv.swap 0 1 : Equiv.Perm (Fin 3)), by decide, by decide⟩
      constants := by simp [overriddenConfig, movedConfig, or_comm]
      attributes := ⟨(Equiv.swap 1 2 : Equiv.Perm (Fin 3)), by decide, by decide⟩
      logger := rfl }
  refine ⟨hmoved, ?_⟩
  obtain ⟨⟨fault, hf⟩, -⟩ | ⟨v, hv, hv', hascending, hfile⟩ := resolve_rearranged hmoved
  · cases hf
  · have hok : overriddenConfig.file.isOk = true := by decide +kernel
    obtain ⟨source, hs⟩ := Fallible.exists_of_isOk hok
    exact ⟨v, source, hv, hv', hascending, hs, hfile.symm.trans hs⟩

end Config
end SlogHelpers
