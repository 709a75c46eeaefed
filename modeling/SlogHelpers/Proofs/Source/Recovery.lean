import SlogHelpers.Proofs.Source.FileQualifiers
import SlogHelpers.Proofs.Source.SectionTexts
import SlogHelpers.Proofs.SortedMap
import SlogHelpers.Proofs.SortedSet

/-!
What a generated file tells of the vocabulary it was made from: everything but the spellings of
names that have the same Go name.
-/
namespace SlogHelpers.Source

/-! ## Files and their sections -/

def furtherText (parts : List Section) : List Char :=
  parts.flatMap fun part => '\n' :: part.text.toList

theorem toList_fileText_cons (part : Section) (parts : List Section) :
    (fileText (part :: parts)).toList = part.text.toList ++ furtherText parts := by
  induction parts generalizing part with
  | nil => simp [fileText, furtherText]
  | cons next parts ih =>
    rw [fileText_cons_cons, String.toList_append, String.toList_append, ih, List.append_assoc]
    rfl

theorem further_delimited :
    Delimited Section.Recoverable (fun part => '\n' :: part.text.toList) (· = '\n') := by
  intro part other rest rest' hp ho hr hr' h
  exact text_delimited hp ho hr hr' (List.cons.inj h).2

/-- The text of a file tells its sections. -/
theorem fileText_inj {part other : Section} {parts others : List Section}
    (hp : ∀ p ∈ part :: parts, p.Recoverable) (ho : ∀ p ∈ other :: others, p.Recoverable)
    (h : fileText (part :: parts) = fileText (other :: others)) :
    part :: parts = other :: others := by
  have hbegins (parts : List Section) : BeginsIn (· = '\n') (furtherText parts) := by
    cases parts with
    | nil => exact beginsIn_nil
    | cons next parts => exact beginsIn_cons (by rfl) _
  have h := congrArg String.toList h
  rw [toList_fileText_cons, toList_fileText_cons] at h
  obtain ⟨hp, hparts⟩ := List.forall_mem_cons.1 hp
  obtain ⟨ho, hothers⟩ := List.forall_mem_cons.1 ho
  obtain ⟨hpart, hfurther⟩ := text_delimited hp ho (hbegins parts) (hbegins others) h
  have hnil : ¬ ['\n'] <+: [] := by decide
  have hend : furtherText parts ++ [] = furtherText others ++ [] := by rw [hfurther]
  rw [hpart, (further_delimited.flatMap
    (fun part => ⟨_, rfl⟩) rfl hparts hothers beginsIn_nil beginsIn_nil hnil hnil
    hend).1]

/-! ## The sections of a vocabulary -/

variable {v : Vocabulary}

/-- The logger has the levels of the vocabulary, or the conventional ones where it has none. -/
def LoggerLevels (v : Vocabulary) : Prop :=
  ∀ plan, v.logger = some plan →
    plan.levels = if v.levels.isEmpty then .ofList conventionalLevels else v.levels

theorem checked_of_mem_sections (h : Valid v) (hl : LoggerLevels v) {part : Section}
    (hp : part ∈ sections v) :
    part.Checked := by
  cases calledFor_of_mem hp with
  | package => exact h.package.1
  | imports hne => exact hne
  | stringConstants hne => exact fun hn => hne (List.map_eq_nil_iff.1 hn)
  | «attribute» entry he => exact h.types entry he
  | method plan name hv hn =>
    have hm := h.methods plan hv
    obtain ⟨entry, he, rfl⟩ := List.mem_map.1 hn
    exact ⟨hm.identifiers _ hn, (hm.not_fixed _ hn).2,
      isIdentifier_of_means (levelReference_means h (hl plan hv) he)⟩
  | _ => trivial

theorem recoverable_of_mem_sections (h : Valid v) (hl : LoggerLevels v) {part : Section}
    (hp : part ∈ sections v) :
    part.Recoverable :=
  ⟨named_of_mem_sections h hp, checked_of_mem_sections h hl hp⟩

theorem sections_inj {w : Vocabulary} (hv : Valid v) (hw : Valid w) (hlv : LoggerLevels v)
    (hlw : LoggerLevels w)
    (h : fileText (sections v) = fileText (sections w)) : sections v = sections w :=
  fileText_inj (fun _ hp => recoverable_of_mem_sections hv hlv hp)
    (fun _ hp => recoverable_of_mem_sections hw hlw hp) h

/-! ## What the sections hold -/

def Section.imports? : Section → Option (List String)
  | .imports paths => some paths
  | _ => none

def Section.stringConstants? : Section → Option (List (String × String))
  | .stringConstants constants => some constants
  | _ => none

/-- How a method is called: with which arguments, and whether with a context. -/
def Section.call? : Section → Option (ArgumentStyle × Bool)
  | .method _ _ style context => some (style, context)
  | _ => none

theorem imports_sections :
    ((sections v).filterMap Section.imports?).flatten = v.imports.toList := by
  rw [filterMap_sections]
  cases he : v.imports.isEmpty with
  | true => cases v.logger <;> simp [Section.imports?, List.isEmpty_iff.1 he]
  | false => cases v.logger <;> simp [Section.imports?]

theorem stringConstants_sections : ((sections v).filterMap Section.stringConstants?).flatten =
    v.constants.toList.map fun name => (Name.camelCase name, name) := by
  rw [filterMap_sections]
  cases he : v.constants.isEmpty with
  | true => cases v.logger <;> simp [Section.stringConstants?, List.isEmpty_iff.1 he]
  | false => cases v.logger <;> simp [Section.stringConstants?]

theorem calls_sections : (sections v).filterMap Section.call? =
    v.logger.elim [] fun plan => plan.levels.values.map fun _ => (plan.style, plan.context) := by
  rw [filterMap_sections]
  cases v.logger with
  | none => simp [Section.call?]
  | some plan => simp [Section.call?]

theorem calls_head?_sections (hl : LoggerLevels v) : ((sections v).filterMap Section.call?).head? =
    v.logger.map fun plan => (plan.style, plan.context) := by
  rw [calls_sections]
  cases hv : v.logger with
  | none => rfl
  | some plan =>
    -- A logger without methods would not show its context.
    have hne : plan.levels.values ≠ [] := by
      rw [hl plan hv]
      cases he : v.levels.isEmpty with
      | true => exact List.cons_ne_nil _ _
      | false =>
        intro hn
        rw [if_neg Bool.false_ne_true] at hn
        rw [SortedMap.isEmpty, List.map_eq_nil_iff.1 hn] at he
        cases he
    obtain ⟨name, names, hnames⟩ := List.exists_cons_of_ne_nil hne
    rw [Option.elim_some, hnames]
    rfl

/-! ## Vocabularies with the same file -/

/-- What two vocabularies with the same file have in common. -/
structure Indistinct (v w : Vocabulary) : Prop where
  package : v.package = w.package
  imports : v.imports = w.imports
  constants : v.constants = w.constants
  attributes : v.attributes = w.attributes
  logger : v.logger.map (fun plan => (plan.style, plan.context)) = w.logger.map fun plan =>
    (plan.style, plan.context)
  severities : v.levels.keys = w.levels.keys
  /-- The names of each level have the same Go name. -/
  names : ∀ severity,
    (v.levels.get? severity).map Name.camelCase = (w.levels.get? severity).map Name.camelCase
  /-- Where names of levels are read and written, they are the same in upper case. -/
  labels : v.hasCustomLevels = true → ∀ severity,
    (v.levels.get? severity).map Text.upperText = (w.levels.get? severity).map Text.upperText

theorem append_level_injective : Function.Injective fun name => "Level" ++ name := by
  intro name other h
  have h := congrArg String.toList h
  simp only [String.toList_append] at h
  exact String.toList_injective (List.append_cancel_left h)

theorem keys_levelHelpers : (levelHelpers v).constants.map Prod.snd = v.levels.keys := List.map_map

theorem names_levelHelpers :
    (levelHelpers v).constants.map Prod.fst = (v.levels.values.map Name.camelCase).map fun name =>
      "Level" ++ name := by
  rw [levelHelpers, SortedMap.values, List.map_map, List.map_map, List.map_map]
  rfl

theorem labels_levelHelpers :
    (levelHelpers v).parseCases.map Prod.fst = v.levels.values.map Text.upperText :=
  List.map_map

theorem entries_attributes_sections :
    ((sections v).filterMap Section.attribute?).map Prod.snd = v.attributes.toList := by
  rw [attributes_sections, List.map_map]
  exact List.map_id v.attributes.toList

theorem names_stringConstants_sections :
    ((sections v).filterMap Section.stringConstants?).flatten.map Prod.snd =
      v.constants.toList := by
  rw [stringConstants_sections, List.map_map]
  exact List.map_id v.constants.toList

variable {w : Vocabulary}

theorem map_get?_congr {f : String → String} (hk : v.levels.keys = w.levels.keys)
    (hf : v.levels.values.map f = w.levels.values.map f) (severity : Severity) :
    (v.levels.get? severity).map f = (w.levels.get? severity).map f := by
  rw [SortedMap.map_get?_eq, SortedMap.map_get?_eq, hk, hf]

theorem indistinct_of_sections (hlv : LoggerLevels v) (hlw : LoggerLevels w)
    (h : sections v = sections w) :
    Indistinct v w := by
  have hpackage : [v.package] = [w.package] := by rw [← packages_sections, ← packages_sections, h]
  have himports : v.imports.toList = w.imports.toList := by
    rw [← imports_sections, ← imports_sections, h]
  have hconstants : v.constants.toList = w.constants.toList := by
    rw [← names_stringConstants_sections, ← names_stringConstants_sections, h]
  have hattributes : v.attributes.toList = w.attributes.toList := by
    rw [← entries_attributes_sections, ← entries_attributes_sections, h]
  have hlevels : (levelHelpers v).constants = (levelHelpers w).constants := by
    rw [← constants_sections, ← constants_sections, h]
  have hkeys : v.levels.keys = w.levels.keys := by
    rw [← keys_levelHelpers, ← keys_levelHelpers, hlevels]
  have hnames : v.levels.values.map Name.camelCase = w.levels.values.map Name.camelCase := by
    refine List.map_injective_iff.2 append_level_injective ?_
    rw [← names_levelHelpers, ← names_levelHelpers, hlevels]
  have hcustom : v.hasCustomLevels = w.hasCustomLevels := by
    rw [Vocabulary.hasCustomLevels, hkeys]; rfl
  refine ⟨(List.cons.inj hpackage).1, ?_, ?_, ?_, ?_, hkeys, ?_, ?_⟩
  · rw [← SortedSet.ofList_toList v.imports, himports, SortedSet.ofList_toList]
  · rw [← SortedSet.ofList_toList v.constants, hconstants, SortedSet.ofList_toList]
  · rw [← SortedMap.ofList_toList v.attributes, hattributes, SortedMap.ofList_toList]
  · rw [← calls_head?_sections hlv, ← calls_head?_sections hlw, h]
  · exact map_get?_congr hkeys hnames
  · intro hc
    refine map_get?_congr hkeys ?_
    have hcases : [(levelHelpers v).parseCases] = [(levelHelpers w).parseCases] := by
      have hread := congrArg (List.filterMap Section.parseCases?) h
      rwa [parseCases_sections, parseCases_sections, ← hcustom, if_pos hc, if_pos hc] at hread
    rw [← labels_levelHelpers, ← labels_levelHelpers, (List.cons.inj hcases).1]

/-- Two configurations that give the same source agree on everything but the spellings that Go names
hide. -/
theorem resolved_source_determines {config other : Config} {source : String}
    (hv : config.resolve = .ok v)
    (hw : other.resolve = .ok w) (hev : emit v = .ok source) (hew : emit w = .ok source) :
    Indistinct v w := by
  obtain ⟨hvalid, rfl⟩ := (emit_eq_ok v).1 hev
  obtain ⟨hvalid', hsource⟩ := (emit_eq_ok w).1 hew
  have hlv : LoggerLevels v := fun _ => levels_of_resolve hv
  have hlw : LoggerLevels w := fun _ => levels_of_resolve hw
  exact indistinct_of_sections hlv hlw (sections_inj hvalid hvalid' hlv hlw hsource)

/-- A level whose name begins with a capital letter or does not. -/
def spelledConfig (name : String) : Config where
  levels := [(name, 12)]
  attributes := [("user", "struct\x7b Name string \x60json:\"name\"\x60 \x7d")]
  logger := some { api := some "attr", context := true }

/-- What the file holds with either spelling. -/
def spelledSections : List Section := [
  .header,
  .package "slogx",
  .imports ["context", "fmt", "log/slog", "runtime", "strings", "time"],
  .levelConstants [("LevelAlert", 12)],
  .attribute "User" "user" "struct\x7b Name string \x60json:\"name\"\x60 \x7d",
  .parseLevel [("ALERT", "LevelAlert")],
  .replaceAttr [("LevelAlert", "ALERT")],
  .loggerType,
  .method "Alert" (.declared "LevelAlert") .attr true,
  .log .attr]

theorem resolved_source_determines_spelledConfig :
    ∃ v w, (spelledConfig "alert").resolve = .ok v ∧ (spelledConfig "Alert").resolve = .ok w ∧
      emit v = .ok (fileText spelledSections) ∧ emit w = .ok (fileText spelledSections) ∧ v ≠ w ∧
      Indistinct v w := by
  obtain ⟨v, w, hv, hw, hne, hok, hok', hsv, hsw⟩ : ∃ v w, (spelledConfig "alert").resolve = .ok v ∧
      (spelledConfig "Alert").resolve = .ok w ∧ v ≠ w ∧ (emit v).isOk = true ∧
      (emit w).isOk = true ∧ sections v = spelledSections ∧ sections w = spelledSections :=
    ⟨_, _, rfl, rfl, by decide +kernel, by decide +kernel, by decide +kernel, by decide +kernel,
      by decide +kernel⟩
  have hsource {v : Vocabulary} (hok : (emit v).isOk = true) (hs : sections v = spelledSections) :
      emit v = .ok (fileText spelledSections) := by
    cases he : emit v with
    | error fault =>
      rw [he] at hok
      cases hok
    | ok source => rw [((emit_eq_ok v).1 he).2, hs]
  have hev := hsource hok hsv
  have hew := hsource hok' hsw
  exact ⟨v, w, hv, hw, hev, hew, hne, resolved_source_determines hv hw hev hew⟩

end SlogHelpers.Source
