import SlogHelpers.Proofs.SortedMap
import SlogHelpers.Proofs.Source.SectionReading
import SlogHelpers.Proofs.Text.Upper

/-!
What the level helpers of a file do: the function that reads level names and the one that writes
them, as two tables of cases over the constants that the file declares. Each undoes the other.
-/
namespace SlogHelpers.Source

/-- The constants of the levels of a file and the cases of its two helpers. -/
structure LevelHelpers where
  constants : List (String × Severity)
  parseCases : List (String × String)
  replaceCases : List (String × String)
  deriving DecidableEq

namespace LevelHelpers

/-- The helpers of a file whose sections have these texts, each in one section. -/
def ofTexts? (texts : List String) : Option LevelHelpers :=
  match texts.filterMap constants?, texts.filterMap parseCases?, texts.filterMap replaceCases? with
  | [constants], [parseCases], [replaceCases] => some ⟨constants, parseCases, replaceCases⟩
  | _, _, _ => none

variable (helpers : LevelHelpers)

def value? (constant : String) : Option Severity := helpers.constants.lookup constant

/-- The constant that `ParseLevel` returns; none in its default branch. -/
def parsedConstant? (s : String) : Option String := helpers.parseCases.lookup (Text.upperText s)

def parseLevel? (s : String) : Option Severity := (helpers.parsedConstant? s).bind helpers.value?

def replaceAttr? (level : Severity) : Option String :=
  (helpers.replaceCases.find? fun entry => helpers.value? entry.1 = some level).map Prod.snd

/-- The helpers read and write the names of these levels, and each undoes the other. -/
structure Inverse (levels : List (Severity × String)) : Prop where
  constants_distinct : (helpers.constants.map Prod.fst).Nodup
  /-- The constants that the helpers name are declared. -/
  declared : ∀ constant ∈ helpers.parseCases.map Prod.snd ++ helpers.replaceCases.map Prod.fst,
    (helpers.value? constant).isSome
  labels_distinct : (helpers.parseCases.map Prod.fst).Nodup
  values_distinct : (helpers.replaceCases.map fun entry => helpers.value? entry.1).Nodup
  parseLevel : ∀ entry ∈ levels, ∀ s, Text.upperText s = Text.upperText entry.2 →
    helpers.parseLevel? s = some entry.1
  default : ∀ s, (∀ entry ∈ levels, Text.upperText s ≠ Text.upperText entry.2) →
    helpers.parsedConstant? s = none
  parse_replaced : ∀ entry ∈ levels, ∃ label,
    helpers.replaceAttr? entry.1 = some label ∧ helpers.parseLevel? label = some entry.1

end LevelHelpers

variable {v : Vocabulary}

def levelHelpers (v : Vocabulary) : LevelHelpers where
  constants := v.levels.toList.map fun entry => (Name.levelConstant entry.2, entry.1)
  parseCases := v.levels.values.map fun name => (Text.upperText name, Name.levelConstant name)
  replaceCases := v.levels.values.map fun name => (Name.levelConstant name, Text.upperText name)

theorem parseCases_levelHelpers : (levelHelpers v).parseCases =
    v.levels.toList.map fun entry =>
      (Text.upperText entry.2, Name.levelConstant entry.2) := List.map_map

theorem replaceCases_levelHelpers : (levelHelpers v).replaceCases =
    v.levels.toList.map fun entry =>
      (Name.levelConstant entry.2, Text.upperText entry.2) := List.map_map

theorem parseCases_sections :
    (sections v).filterMap Section.parseCases? =
      if v.hasCustomLevels then [(levelHelpers v).parseCases] else [] := by
  rw [filterMap_sections, levelHelpers]
  cases v.logger <;> simp [Section.parseCases?]

theorem replaceCases_sections :
    (sections v).filterMap Section.replaceCases? =
      if v.hasCustomLevels then [(levelHelpers v).replaceCases] else [] := by
  rw [filterMap_sections, levelHelpers]
  cases v.logger <;> simp [Section.replaceCases?]

theorem ofTexts?_sections (h : Valid v) (hc : v.hasCustomLevels = true) :
    LevelHelpers.ofTexts? ((sections v).map Section.text) = some (levelHelpers v) := by
  have hconstants : (sections v).filterMap Section.constants? = [(levelHelpers v).constants] := by
    rw [filterMap_sections, hc, isEmpty_levels_of_hasCustomLevels hc, levelHelpers]
    cases v.logger <;> simp [Section.constants?]
  rw [LevelHelpers.ofTexts?, filterMap_texts (fun _ => constants?_text) h,
    filterMap_texts (fun _ => parseCases?_text) h, filterMap_texts (fun _ => replaceCases?_text) h,
    hconstants, parseCases_sections, replaceCases_sections, hc]
  rfl

theorem nodup_constants (h : Valid v) : ((levelHelpers v).constants.map Prod.fst).Nodup := by
  have hd := h.distinct
  rw [packageIdentifiers, List.append_assoc, List.append_assoc, List.append_assoc, SortedMap.values,
    List.map_map] at hd
  rw [levelHelpers, List.map_map]
  exact (List.nodup_append.1 hd).1

theorem nodup_labels (h : Valid v) (hc : v.hasCustomLevels = true) :
    ((levelHelpers v).parseCases.map Prod.fst).Nodup := by
  have hl := h.labels hc
  rw [levelHelpers, List.map_map]
  exact hl

section
variable {entry : Severity × String} (h : Valid v) (he : entry ∈ v.levels.toList)
include h he

theorem value?_levelConstant :
    (levelHelpers v).value? (Name.levelConstant entry.2) = some entry.1 :=
  (Lists.lookup_eq_some_iff_mem (nodup_constants h)).2 (List.mem_map_of_mem he)

theorem parseLevel?_eq_some (hc : v.hasCustomLevels = true) {s : String}
    (hs : Text.upperText s = Text.upperText entry.2) :
    (levelHelpers v).parseLevel? s = some entry.1 := by
  have hm : (Text.upperText s, Name.levelConstant entry.2) ∈ (levelHelpers v).parseCases := by
    rw [hs]
    exact List.mem_map.2 ⟨entry.2, List.mem_map_of_mem he, rfl⟩
  have hp : (levelHelpers v).parsedConstant? s = some (Name.levelConstant entry.2) :=
    (Lists.lookup_eq_some_iff_mem (nodup_labels h hc)).2 hm
  rw [LevelHelpers.parseLevel?, hp]
  exact value?_levelConstant h he

theorem replaceAttr?_eq_some :
    (levelHelpers v).replaceAttr? entry.1 = some (Text.upperText entry.2) := by
  have hf :
      (levelHelpers v).replaceCases.find? (fun c => (levelHelpers v).value? c.1 = some entry.1) =
      some (Name.levelConstant entry.2, Text.upperText entry.2) := by
    refine Lists.find?_eq_some_of_unique ?_ ?_ ?_
    · exact List.mem_map.2 ⟨entry.2, List.mem_map_of_mem he, rfl⟩
    · exact decide_eq_true (value?_levelConstant h he)
    · intro c hc hv
      obtain ⟨name, hname, rfl⟩ := List.mem_map.1 hc
      obtain ⟨other, hother, rfl⟩ := List.mem_map.1 hname
      have hsame : other.1 = entry.1 := by
        have hv := of_decide_eq_true hv
        rw [value?_levelConstant h hother] at hv
        exact Option.some.inj hv
      rw [List.inj_on_of_nodup_map v.levels.nodup_keys hother he hsame]
  rw [LevelHelpers.replaceAttr?, hf, Option.map_some]

end

theorem values_replaceCases (h : Valid v) :
    (levelHelpers v).replaceCases.map (fun entry => (levelHelpers v).value? entry.1) =
      v.levels.keys.map some := by
  rw [replaceCases_levelHelpers, SortedMap.keys, List.map_map, List.map_map]
  exact List.map_congr_left fun entry he => value?_levelConstant h he

/-- The level helpers of a file, as its sections spell them, undo each other. -/
theorem level_helpers_inverse {source : String} (hc : v.hasCustomLevels = true)
    (he : emit v = .ok source) :
    source = fileText (sections v) ∧
      ∃ helpers, LevelHelpers.ofTexts? ((sections v).map Section.text) = some helpers ∧
        helpers.Inverse v.levels.toList := by
  obtain ⟨h, hs⟩ := (emit_eq_ok v).1 he
  refine ⟨hs, levelHelpers v, ofTexts?_sections h hc, ?_⟩
  refine ⟨nodup_constants h, ?_, nodup_labels h hc, ?_, ?_, ?_, ?_⟩
  · intro constant hconstant
    have hm : constant ∈ v.levels.values.map Name.levelConstant := by
      simpa [levelHelpers] using hconstant
    obtain ⟨name, hname, rfl⟩ := List.mem_map.1 hm
    obtain ⟨entry, hentry, rfl⟩ := List.mem_map.1 hname
    exact Option.isSome_of_eq_some (value?_levelConstant h hentry)
  · rw [values_replaceCases h]
    exact v.levels.nodup_keys.map (Option.some_injective _)
  · intro entry hentry s hs
    exact parseLevel?_eq_some h hentry hc hs
  · intro s hs
    refine List.lookup_eq_none_iff.2 fun c hcase => ?_
    obtain ⟨name, hname, rfl⟩ := List.mem_map.1 hcase
    obtain ⟨entry, hentry, rfl⟩ := List.mem_map.1 hname
    exact bne_iff_ne.2 (hs entry hentry)
  · intro entry hentry
    exact ⟨_, replaceAttr?_eq_some h hentry,
      parseLevel?_eq_some h hentry hc (Text.upperText_upperText entry.2)⟩

/-- Two levels beside the conventional ones, one with a letter that has no upper-case form of its
own. -/
def customLevels : Vocabulary where
  package := "slogx"
  imports := .empty
  levels := .ofList [(2, "straße"), (6, "trace")]
  constants := .empty
  attributes := .empty
  logger := none

theorem level_helpers_inverse_customLevels :
    ∃ source, emit customLevels = .ok source ∧ customLevels.hasCustomLevels = true ∧
      ∃ helpers, LevelHelpers.ofTexts? ((sections customLevels).map Section.text) = some helpers ∧
        helpers.Inverse [(2, "straße"), (6, "trace")] := by
  have hc : customLevels.hasCustomLevels = true := by decide
  have hok : (emit customLevels).isOk = true := by decide +kernel
  cases he : emit customLevels with
  | error fault =>
    rw [he] at hok
    cases hok
  | ok source => exact ⟨source, rfl, hc, (level_helpers_inverse hc he).2⟩

end SlogHelpers.Source
