import SlogHelpers.Proofs.Source.SectionQualifiers

/-!
The packages that a file names: those of its sections, one after the other. Which ones these are
depends on the kinds of sections alone, so it is told by what the vocabulary has.
-/
namespace SlogHelpers.Source

/-! ## Files in pieces -/

def filePieces (parts : List Section) : List Piece :=
  [Piece.code ['\n']].intercalate (parts.map Section.pieces)

theorem filePieces_cons {part : Section} {parts : List Section} (h : parts ≠ []) :
    filePieces (part :: parts) = part.pieces ++ [.code ['\n']] ++ filePieces parts := by
  rw [filePieces, List.map_cons, List.intercalate_cons_of_ne_nil (by simpa using h)]
  rfl

theorem flatMap_filePieces (parts : List Section) :
    (filePieces parts).flatMap Piece.text = (fileText parts).toList := by
  rw [fileText, String.toList_intercalate, List.map_map, String.toList_ofList]
  induction parts with
  | nil => rfl
  | cons part parts ih =>
    cases parts with
    | nil => simpa [filePieces] using part.flatMap_pieces
    | cons next parts =>
      rw [filePieces_cons (List.cons_ne_nil _ _), List.flatMap_append, List.flatMap_append, ih,
        Section.flatMap_pieces]
      exact (List.intercalate_cons_of_ne_nil (List.cons_ne_nil _ _)).symm

def Section.attribute? : Section → Option (String × String × String)
  | .attribute function key type => some (function, key, type)
  | _ => none

theorem types_pieces (part : Section) :
    part.pieces.filterMap Piece.type? = ([part].filterMap Section.attribute?).map fun found =>
      found.2.2.toList := by
  cases part with
  | _ => rfl

/-- The types apart are those of the attributes. -/
theorem types_filePieces (parts : List Section) :
    (filePieces parts).filterMap Piece.type? =
      (parts.filterMap Section.attribute?).map fun found => found.2.2.toList := by
  induction parts with
  | nil => rfl
  | cons part parts ih =>
    rw [← List.singleton_append, List.filterMap_append, List.map_append, ← types_pieces, ← ih]
    cases parts with
    | nil => simp [filePieces]
    | cons next parts =>
      rw [List.singleton_append, filePieces_cons (List.cons_ne_nil _ _), List.filterMap_append,
        List.filterMap_append, List.append_assoc]
      rfl

theorem names_filePieces {parts : List Section} (h : ∀ part ∈ parts, part.Worded) :
    Names (filePieces parts) (parts.flatMap Section.qualifiers) := by
  induction parts with
  | nil => exact names_nil
  | cons part parts ih =>
    obtain ⟨hpart, hparts⟩ := List.forall_mem_cons.1 h
    cases parts with
    | nil => simpa [filePieces] using names_pieces hpart
    | cons next parts =>
      have hn := ((names_pieces hpart).append names_end).append (ih hparts)
      rw [String.toList_ofList, List.append_nil, ← filePieces_cons (List.cons_ne_nil _ _)] at hn
      exact hn

/-! ## Files of a vocabulary -/

variable {v : Vocabulary} {name : String}

def preamble (v : Vocabulary) : List Section :=
  [.header, .package v.package] ++ if v.imports.isEmpty then [] else [.imports v.imports.toList]

def declarations (v : Vocabulary) : List Section := (sections v).drop (preamble v).length

theorem preamble_append_declarations : preamble v ++ declarations v = sections v := by
  have hp : preamble v <+: sections v := by
    simp only [sections, preamble, List.append_assoc]
    exact (List.prefix_append_right_inj _).2 (List.prefix_append _ _)
  exact List.prefix_iff_eq_append.1 hp

def Section.package? : Section → Option String
  | .package name => some name
  | _ => none

theorem packages_sections : (sections v).filterMap Section.package? = [v.package] := by
  rw [filterMap_sections]
  cases v.logger <;> simp [Section.package?]

theorem attributes_sections : (sections v).filterMap Section.attribute? =
    v.attributes.toList.map fun entry => (Name.camelCase entry.1, entry.1, entry.2) := by
  rw [filterMap_sections]
  cases v.logger <;> simp [Section.attribute?]

theorem worded_of_mem_sections (h : Valid v)
    (hl : ∀ plan, v.logger = some plan →
      plan.levels = if v.levels.isEmpty then .ofList conventionalLevels else v.levels)
    {part : Section} (hp : part ∈ sections v) : part.Worded := by
  have hnamed := named_of_mem_sections h hp
  cases calledFor_of_mem hp with
  | package => exact h.package.1
  | «attribute» entry he => exact ⟨hnamed, h.types entry he⟩
  | method plan name hv hn =>
    obtain ⟨entry, he, rfl⟩ := List.mem_map.1 hn
    exact ⟨(h.methods plan hv).identifiers _ hn,
      isIdentifier_of_means (levelReference_means h (hl plan hv) he)⟩
  | _ => exact hnamed

theorem qualifiers_declarations :
    (declarations v).flatMap Section.qualifiers = (sections v).flatMap Section.qualifiers := by
  have hp : (preamble v).flatMap Section.qualifiers = [] := by
    rw [preamble]
    split <;> rfl
  rw [← preamble_append_declarations, List.flatMap_append, hp, List.nil_append]

/-- The packages and variables that the logger names. -/
def loggerQualifiers : List String := ["slog", "context", "runtime", "time", "l", "r"]

theorem mem_qualifiers_loggerSections {hasLevels : Bool} {plan : LoggerPlan} :
    name ∈ (loggerSections hasLevels plan).flatMap Section.qualifiers ↔
      name ∈ loggerQualifiers := by
  constructor
  · intro h
    obtain ⟨part, hp, hname⟩ := List.mem_flatMap.1 h
    simp only [loggerSections, List.cons_append, List.mem_cons, List.mem_append, List.mem_map,
      List.not_mem_nil, or_false] at hp
    obtain rfl | ⟨level, -, rfl⟩ | rfl := hp
    · obtain rfl := List.mem_singleton.1 hname
      decide
    · revert hname
      cases plan.style <;> cases plan.context <;> cases hasLevels <;>
        grind [Section.qualifiers, LevelReference.qualifiers, loggerQualifiers]
    · clear h
      revert name
      cases plan.style <;> decide
  · intro h
    refine List.mem_flatMap.2 ⟨.log plan.style, by simp [loggerSections], ?_⟩
    revert name
    cases plan.style <;> decide

/-- The packages and variables that the helpers of the levels name. -/
def helperQualifiers : List String := ["slog", "strings", "fmt", "attr"]

theorem mem_flatMap_const {α β : Type} {xs : List α} {ys : List β} {y : β} :
    y ∈ xs.flatMap (fun _ => ys) ↔ xs.isEmpty = false ∧ y ∈ ys := by
  cases xs with
  | nil => simp
  | cons x xs => simp

/-- Which packages a file names. -/
theorem mem_qualifiers_sections : name ∈ (sections v).flatMap Section.qualifiers ↔
    (v.levels.isEmpty = false ∨ v.attributes.isEmpty = false) ∧ name = "slog" ∨
      v.hasCustomLevels = true ∧ name ∈ helperQualifiers ∨
      v.logger.isSome = true ∧ name ∈ loggerQualifiers := by
  have hopening : name ∉ [Section.header, .package v.package].flatMap Section.qualifiers :=
    List.not_mem_nil
  have himports :
      name ∉ (if v.imports.isEmpty then [] else [Section.imports v.imports.toList]).flatMap
      Section.qualifiers := by
    split <;> exact List.not_mem_nil
  have hconstants : name ∉ (if v.constants.isEmpty then [] else
      [Section.stringConstants
        (v.constants.toList.map fun name => (Name.camelCase name, name))]).flatMap
      Section.qualifiers := by
    split <;> exact List.not_mem_nil
  have hlevels : name ∈ (if v.levels.isEmpty then [] else
      [Section.levelConstants
        (v.levels.toList.map fun entry => (Name.levelConstant entry.2, entry.1))]).flatMap
      Section.qualifiers ↔ v.levels.isEmpty = false ∧ name = "slog" := by
    cases he : v.levels.isEmpty with
    | true => simp
    | false =>
      have hq (levels : List (String × Severity)) :
          (Section.levelConstants levels).qualifiers = levels.flatMap fun _ => ["slog"] :=
            List.map_eq_flatMap
      rw [if_neg Bool.false_ne_true, List.flatMap_singleton, hq, mem_flatMap_const,
        List.isEmpty_map, List.mem_singleton, ← he]
      rfl
  have hattributes : name ∈ (v.attributes.toList.map fun entry =>
      Section.attribute (Name.camelCase entry.1) entry.1 entry.2).flatMap Section.qualifiers ↔
      v.attributes.isEmpty = false ∧ name = "slog" := by
    rw [List.flatMap_map]
    simp only [Section.qualifiers, mem_flatMap_const]
    simp [SortedMap.isEmpty]
  have hhelpers : name ∈ (if v.hasCustomLevels then
      [Section.parseLevel
        (v.levels.values.map fun name => (Text.upperText name, Name.levelConstant name)),
        .replaceAttr
          (v.levels.values.map fun name => (Name.levelConstant name, Text.upperText name))]
      else []).flatMap Section.qualifiers ↔ v.hasCustomLevels = true ∧ name ∈ helperQualifiers := by
    cases v.hasCustomLevels with
    | true =>
      simp only [if_true, List.flatMap_cons, List.flatMap_nil, Section.qualifiers, List.mem_append,
        mem_flatMap_const, helperQualifiers, List.mem_cons, List.not_mem_nil, or_false, true_and]
      grind
    | false => simp
  have hlogger :
      name ∈ (v.logger.elim [] (loggerSections !v.levels.isEmpty)).flatMap Section.qualifiers ↔
      v.logger.isSome = true ∧ name ∈ loggerQualifiers := by
    cases v.logger with
    | none => simp
    | some plan => simpa using mem_qualifiers_loggerSections
  simp only [sections, List.flatMap_append, List.mem_append, hopening, himports, hlevels,
    hconstants, hattributes, hhelpers, hlogger, false_or, or_false, or_and_right, or_assoc]

end SlogHelpers.Source
