import Mathlib.Data.String.Basic
import SlogHelpers.Proofs.SortedSet
import SlogHelpers.Proofs.Source.FileQualifiers

/-!
What a file imports and what it needs. The imports are derived from a configuration before there is
a file, the names of packages stand in the file: every package that the file names is imported, and
each path once.
-/
namespace SlogHelpers.Source

/-! ## Imports read back -/

def importLine? (line : List Char) : Option String :=
  (between? "import ".toList [] line).bind label?

/-- The paths that a text imports, one in each line. -/
def importPaths? (text : String) : Option (List String) :=
  (lines? text.toList).bind fun lines => if lines = [] then none else lines.mapM importLine?

def importedPaths (texts : List String) : List String := (texts.filterMap importPaths?).flatten

def Section.importPaths? : Section → Option (List String)
  | .imports paths => if paths = [] then none else some paths
  | _ => none

variable {v : Vocabulary} {config : Config} {path source : String}

theorem importLine?_text : importLine? ("import " ++ literal path).toList = some path := by
  have hb : between? "import ".toList [] ("import " ++ literal path).toList =
      some (literal path).toList :=
    between?_eq_some.2 (by rw [String.toList_append, List.append_nil])
  rw [importLine?, hb, Option.bind_some, label?_literal]

theorem importPaths?_imports (paths : List String) :
    importPaths? (Section.imports paths).text = if paths = [] then none else some paths := by
  have hl : ∀ line ∈ (Section.imports paths).lines, '\n' ∉ line.toList := by
    intro line hline
    obtain ⟨path, -, rfl⟩ := List.mem_map.1 hline
    simp [newline_not_mem_literal]
  have hm :
      ((Section.imports paths).lines.map String.toList).mapM importLine? = some (paths.map id) := by
    rw [Section.lines, List.map_map]
    exact Lists.mapM_map_eq_some fun path _ => importLine?_text
  rw [importPaths?, lines?_text hl, Option.bind_some, hm, List.map_id]
  simp [Section.lines]

theorem prefix_of_importPaths? {text : String} {paths : List String}
    (h : importPaths? text = some paths) :
    ['i'] <+: text.toList := by
  obtain ⟨lines, hlines, h⟩ := Option.bind_eq_some_iff.1 h
  cases lines with
  | nil => cases h
  | cons line more =>
    rw [if_neg (List.cons_ne_nil _ _), List.mapM_cons] at h
    obtain ⟨found, hfound, -⟩ := Option.bind_eq_some_iff.1 h
    obtain ⟨rest, hrest, -⟩ := Option.bind_eq_some_iff.1 hfound
    have hp : "import ".toList <+: line := by
      rw [between?_eq_some.1 hrest, List.append_nil]
      exact List.prefix_append _ _
    rw [String.toList_ofList] at hp
    exact List.IsPrefix.trans ⟨_, rfl⟩ (hp.trans (prefix_of_lines? hlines))

theorem importPaths?_text (part : Section) : importPaths? part.text = part.importPaths? := by
  have hnone (hp : ¬ ['i'] <+: part.text.toList) : importPaths? part.text = none :=
    Option.eq_none_iff_forall_ne_some.2 fun paths hf => hp (prefix_of_importPaths? hf)
  cases part with
  | imports paths => exact importPaths?_imports paths
  | _ => exact hnone (not_prefix_text (by simp) (by simp [Section.start]) (by simp [Section.start]))

/-- A file imports what its vocabulary does. -/
theorem importedPaths_sections :
    importedPaths ((sections v).map Section.text) = v.imports.toList := by
  rw [importedPaths, List.filterMap_map]
  have ht : importPaths? ∘ Section.text = Section.importPaths? := funext importPaths?_text
  rw [ht, filterMap_sections]
  cases he : v.imports.toList with
  | nil => cases v.logger <;> simp [Section.importPaths?, SortedSet.isEmpty, he]
  | cons path paths => cases v.logger <;> simp [Section.importPaths?, SortedSet.isEmpty, he]

/-! ## Imports needed -/

/-- The name of the package at a path: what stands behind the last slash. -/
def packageName (path : String) : String := String.ofList ((path.toList.splitOn '/').getLastD [])

/-- The packages that a file may name, by their paths. -/
def standardImports : List String := ["log/slog", "fmt", "strings", "context", "runtime", "time"]

/-- What the sections of a file need: the helpers of the levels are there for custom levels only. -/
def neededImports (v : Vocabulary) : List String :=
  (if !v.levels.isEmpty || !v.attributes.isEmpty || v.logger.isSome then ["log/slog"] else []) ++
  (if v.hasCustomLevels then ["fmt", "strings"] else []) ++
  (if v.logger.isSome then ["context", "runtime", "time"] else [])

theorem named_iff_needed (hp : path ∈ standardImports) :
    packageName path ∈ (sections v).flatMap Section.qualifiers ↔ path ∈ neededImports v := by
  have hcustom : v.hasCustomLevels = true → v.levels.isEmpty = false :=
    isEmpty_levels_of_hasCustomLevels
  rw [mem_qualifiers_sections, neededImports]
  -- What remains is a table: six paths, by what the vocabulary has.
  revert hcustom
  generalize v.levels.isEmpty = a, v.attributes.isEmpty = b, v.hasCustomLevels = c,
  v.logger.isSome = d
  revert path
  revert a b c d
  decide +kernel

/-! ## Imports derived -/

theorem mem_imports_of_resolve (hr : config.resolve = .ok v) : path ∈ v.imports ↔
    path ∈ config.imports ∨
    path ∈ Config.derivedImports (!v.levels.isEmpty) (!v.attributes.isEmpty) v.logger.isSome := by
  obtain ⟨-, styled, -, rfl⟩ := Config.resolve_eq_ok.1 hr
  have hs : (config.named styled).logger.isSome = styled.isSome := Option.isSome_map
  rw [hs, ← List.mem_append]
  exact SortedSet.mem_ofList

/-- What the sections need is derived, and what is derived without need is there for levels that
have no helpers. -/
theorem mem_derivedImports :
    path ∈ Config.derivedImports (!v.levels.isEmpty) (!v.attributes.isEmpty) v.logger.isSome ↔
      path ∈ neededImports v ∨
        v.levels.isEmpty = false ∧ v.hasCustomLevels = false ∧ path ∈ ["fmt", "strings"] := by
  have hcustom : v.hasCustomLevels = true → v.levels.isEmpty = false :=
    isEmpty_levels_of_hasCustomLevels
  rw [Config.derivedImports, neededImports]
  cases he : v.levels.isEmpty with
  | true =>
    have hc : v.hasCustomLevels = false := by simpa [he] using hcustom
    simp [hc]
  | false =>
    cases v.hasCustomLevels with
    | true => simp
    | false =>
      simp only [List.mem_append, Bool.not_false, Bool.true_or, if_true,
        Bool.false_eq_true, if_false, List.not_mem_nil, or_false, true_and]
      exact or_right_comm

theorem custom_of_needed (h : path ∈ neededImports v) (hp : path ∈ ["fmt", "strings"]) :
    v.hasCustomLevels = true := by
  by_contra hc
  rw [neededImports, if_neg hc, List.append_nil] at h
  obtain rfl | rfl : path = "fmt" ∨ path = "strings" := by simpa using hp
  · simp at h
  · simp at h

theorem standard_of_derived {levels attributes logger : Bool}
    (h : path ∈ Config.derivedImports levels attributes logger) : path ∈ standardImports := by
  revert path
  revert levels attributes logger
  decide +kernel

theorem worded_of_resolve (hr : config.resolve = .ok v) (h : Valid v) {part : Section}
    (hp : part ∈ sections v) :
    part.Worded :=
  worded_of_mem_sections h (fun _ hl => levels_of_resolve hr hl) hp

/-- The imports of a file suffice: each package of the standard library that the file names, outside
of literals, comments and the types of its attributes, is imported, and no path is imported
twice. -/
theorem imports_suffice (hr : config.resolve = .ok v) (he : emit v = .ok source) :
    source.toList = (filePieces (sections v)).flatMap Piece.text ∧
      (filePieces (sections v)).filterMap Piece.type? = v.attributes.values.map String.toList ∧
      source = fileText (sections v) ∧
      (∀ path ∈ standardImports, packageName path ∈ qualifiers (filePieces (sections v)) →
        path ∈ importedPaths ((sections v).map Section.text)) ∧
      (∀ path, path ∈ importedPaths ((sections v).map Section.text) ↔ path ∈ v.imports) ∧
      ∀ path ∈ importedPaths ((sections v).map Section.text),
        (importedPaths ((sections v).map Section.text)).count path = 1 := by
  obtain ⟨h, rfl⟩ := (emit_eq_ok v).1 he
  rw [importedPaths_sections, types_filePieces, attributes_sections]
  refine ⟨(flatMap_filePieces _).symm, ?_, rfl, ?_, fun path => Iff.rfl, ?_⟩
  · simp [SortedMap.values]
  · intro path hp hq
    rw [(names_filePieces fun part hpart => worded_of_resolve hr h hpart).eq, named_iff_needed hp]
      at hq
    exact (mem_imports_of_resolve hr).2 (.inr (mem_derivedImports.2 (.inl hq)))
  · intro path hp
    exact List.count_eq_one_of_mem (v.imports.ascending.imp ne_of_lt) hp

def serviceConfig : Config where
  imports := ["time"]
  levels := [("info", 0), ("alert", ⟨12, by decide, by decide⟩)]
  attributes := [("started_at", "time.Time")]
  logger := some { api := some "attr", context := true }

theorem imports_suffice_serviceConfig :
    ∃ v source, serviceConfig.resolve = .ok v ∧ emit v = .ok source ∧
      v.imports.toList = ["context", "fmt", "log/slog", "runtime", "strings", "time"] ∧
      source.toList = (filePieces (sections v)).flatMap Piece.text ∧
      (filePieces (sections v)).filterMap Piece.type? = v.attributes.values.map String.toList ∧
      source = fileText (sections v) ∧
      (∀ path ∈ standardImports, packageName path ∈ qualifiers (filePieces (sections v)) →
        path ∈ importedPaths ((sections v).map Section.text)) ∧
      (∀ path, path ∈ importedPaths ((sections v).map Section.text) ↔ path ∈ v.imports) ∧
      ∀ path ∈ importedPaths ((sections v).map Section.text),
        (importedPaths ((sections v).map Section.text)).count path = 1 := by
  obtain ⟨v, hr, hok, himports⟩ : ∃ v, serviceConfig.resolve = .ok v ∧ (emit v).isOk = true ∧
      v.imports.toList = ["context", "fmt", "log/slog", "runtime", "strings", "time"] :=
    ⟨_, rfl, by decide +kernel, by decide +kernel⟩
  cases he : emit v with
  | error fault =>
    rw [he] at hok
    cases hok
  | ok source => exact ⟨v, source, hr, he, himports, imports_suffice hr he⟩

/-- Without imports of its own, the configuration has no import that its file does not name behind
its imports; but `fmt` and `strings` come with levels of which none is custom, and then nothing
names them. -/
theorem derived_imports_named (hi : config.imports = []) (hr : config.resolve = .ok v)
    (he : emit v = .ok source) :
    source = fileText (preamble v ++ declarations v) ∧
      ∀ path ∈ v.imports, packageName path ∈ qualifiers (filePieces (declarations v)) ↔
        (path ∈ ["fmt", "strings"] → v.hasCustomLevels = true) := by
  obtain ⟨h, rfl⟩ := (emit_eq_ok v).1 he
  refine ⟨by rw [preamble_append_declarations], fun path hp => ?_⟩
  have hw : ∀ part ∈ declarations v, part.Worded :=
    fun part hpart => worded_of_resolve hr h (List.mem_of_mem_drop hpart)
  rw [mem_imports_of_resolve hr, hi] at hp
  have hd := hp.resolve_left List.not_mem_nil
  rw [(names_filePieces hw).eq, qualifiers_declarations, named_iff_needed (standard_of_derived hd)]
  constructor
  · exact custom_of_needed
  · intro hc
    obtain hn | ⟨-, hcustom, hp⟩ := mem_derivedImports.1 hd
    · exact hn
    · rw [hc hp] at hcustom
      cases hcustom

/-- One conventional level and nothing else. -/
def infoConfig : Config where
  levels := [("info", 0)]

theorem derived_imports_named_infoConfig :
    ∃ v source, infoConfig.resolve = .ok v ∧ emit v = .ok source ∧
      v.imports.toList = ["fmt", "log/slog", "strings"] ∧
        source = fileText (preamble v ++ declarations v) ∧
      ∀ path ∈ v.imports, packageName path ∈ qualifiers (filePieces (declarations v)) ↔
        (path ∈ ["fmt", "strings"] → v.hasCustomLevels = true) := by
  obtain ⟨v, hr, hok, himports⟩ : ∃ v, infoConfig.resolve = .ok v ∧ (emit v).isOk = true ∧
      v.imports.toList = ["fmt", "log/slog", "strings"] :=
        ⟨_, rfl, by decide +kernel, by decide +kernel⟩
  cases he : emit v with
  | error fault =>
    rw [he] at hok
    cases hok
  | ok source => exact ⟨v, source, hr, he, himports, derived_imports_named rfl hr he⟩

/-- The file of one conventional level imports `fmt` and `strings` and names neither. -/
theorem not_named_infoConfig :
    infoConfig.imports = [] ∧ ∃ v source, infoConfig.resolve = .ok v ∧ emit v = .ok source ∧
      ∀ path ∈ ["fmt", "strings"],
        path ∈ v.imports.toList ∧ packageName path ∉ qualifiers (filePieces (declarations v)) := by
  refine ⟨rfl, _, _, rfl, rfl, ?_⟩
  decide +kernel

end SlogHelpers.Source
