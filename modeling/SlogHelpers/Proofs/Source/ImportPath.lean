import SlogHelpers.Proofs.Text.Graphic
import SlogHelpers.Source.Identifier

/-!
Import paths, as they are checked and as Go has them. Go wants every character of a path graphic;
the check refuses white space and controls in its place. The two differ on the characters that are
neither graphic nor white space nor controls: format, private-use and unassigned ones pass the
check.
-/
namespace SlogHelpers.Source
open Text

/-- The characters that Go keeps out of import strings though they are graphic. -/
def illegalInPaths : String := "!\"#$%&\x27()*,:;<=>?[\\]^\x60\x7b|\x7d\ufffd"

/-- The import paths of Go: not empty, and every character graphic, no white space and not
illegal. -/
def IsGoPath (path : String) : Prop :=
  path ≠ "" ∧ ∀ c ∈ path.toList, isGraphic c = true ∧ isBlank c = false ∧ c ∉ illegalInPaths.toList

/-- The classes of characters that are not graphic and may stand in a checked path all the same. -/
def strayClasses : List GeneralClass := [.format, .privateUse, .unassigned]

theorem mem_illegalInPaths (c : Char) :
    c ∈ illegalInPaths.toList ↔ c ∈ reservedInPaths ∨ c = '\ufffd' := by
  have h : illegalInPaths.toList = reservedInPaths ++ ['\ufffd'] := by decide
  rw [h, List.mem_append, List.mem_singleton]

theorem mem_separator_control_iff (k : GeneralClass) :
    k ∈ [.separator, .control] ↔ ¬ (k = .graphic ∨ k ∈ strayClasses) := by
  cases k <;> decide

/-- What may stand in a path is told by the class of the character, but for the illegal ones. -/
theorem isPathChar_iff (c : Char) :
    isPathChar c = true ↔
      (isGraphic c = true ∨ generalClass c ∈ strayClasses) ∧ c ∉ illegalInPaths.toList := by
  have hclasses : isGraphic c = true ∨ generalClass c ∈ strayClasses ↔
      ¬ (isBlank c = true ∨ isControl c = true) := by
    rw [isBlank_or_isControl_iff, mem_separator_control_iff, not_not, generalClass_eq_graphic_iff]
  rw [hclasses, mem_illegalInPaths]
  simp only [isPathChar, Bool.and_eq_true, Bool.not_eq_true', bne_iff_ne, not_or, Bool.not_eq_true,
    List.contains_eq_mem, decide_eq_false_iff_not, and_assoc]

theorem isImportPath_iff (path : String) :
    isImportPath path = true ↔
      path ≠ "" ∧ ∀ c ∈ path.toList,
        (isGraphic c = true ∨ generalClass c ∈ strayClasses) ∧ c ∉ illegalInPaths.toList := by
  simp only [← isPathChar_iff, isImportPath, Bool.and_eq_true, Bool.not_eq_true', List.all_eq_true,
    String.isEmpty_eq_false_iff, ne_eq]

/-- A graphic character is in none of the other classes, and it is no white space. -/
theorem isGraphic_iff_not_stray {c : Char}
    (h : isGraphic c = true ∨ generalClass c ∈ strayClasses) :
    isGraphic c = true ∧ isBlank c = false ↔ generalClass c ∉ strayClasses := by
  constructor
  · rintro ⟨hc, -⟩
    rw [(generalClass_eq_graphic_iff c).mpr hc]
    decide
  · intro hstray
    have hc : isGraphic c = true := h.resolve_right hstray
    refine ⟨hc, Bool.eq_false_iff.mpr fun hblank => ?_⟩
    have hmem := (isBlank_or_isControl_iff c).mp (.inl hblank)
    rw [(generalClass_eq_graphic_iff c).mpr hc] at hmem
    exact absurd hmem (by decide)

/-- What the check of import paths accepts: the paths that are not empty, with graphic, format,
private-use and unassigned characters and none of the illegal ones. The paths of Go are those among
them without a format, private-use or unassigned character. -/
theorem isImportPath_exact (path : String) :
    (isImportPath path = true ↔
      path ≠ "" ∧ ∀ c ∈ path.toList,
        (isGraphic c = true ∨ generalClass c ∈ strayClasses) ∧ c ∉ illegalInPaths.toList) ∧
    (IsGoPath path ↔
      isImportPath path = true ∧ ∀ c ∈ path.toList, generalClass c ∉ strayClasses) := by
  refine ⟨isImportPath_iff path, ?_⟩
  rw [isImportPath_iff]
  constructor
  · rintro ⟨hne, hgo⟩
    refine ⟨⟨hne, fun c hc => ?_⟩, fun c hc => ?_⟩
    · obtain ⟨hgraphic, -, hlegal⟩ := hgo c hc
      exact ⟨.inl hgraphic, hlegal⟩
    · obtain ⟨hgraphic, hblank, -⟩ := hgo c hc
      exact (isGraphic_iff_not_stray (.inl hgraphic)).mp ⟨hgraphic, hblank⟩
  · rintro ⟨⟨hne, hcheck⟩, hstray⟩
    refine ⟨hne, fun c hc => ?_⟩
    obtain ⟨hclass, hlegal⟩ := hcheck c hc
    obtain ⟨hgraphic, hblank⟩ := (isGraphic_iff_not_stray hclass).mpr (hstray c hc)
    exact ⟨hgraphic, hblank, hlegal⟩

theorem not_isGoPath_of_mem {path : String} {c : Char} (hc : c ∈ path.toList)
    (h : isGraphic c = false) :
    ¬ IsGoPath path := fun hgo => by simp [(hgo.2 c hc).1] at h

/-- One path for each of the three classes: a zero-width space, a private-use character and a code
point that has no character yet. -/
theorem not_isGoPath_strayCharacters :
    (isImportPath "log/slog\u200b" = true ∧ ¬ IsGoPath "log/slog\u200b") ∧
    (isImportPath "log/slog\ue000" = true ∧ ¬ IsGoPath "log/slog\ue000") ∧
    isImportPath "log/slog\u0378" = true ∧ ¬ IsGoPath "log/slog\u0378" := by
  have hformat : isGraphic '\u200b' = false := by decide +kernel
  have hprivate : isGraphic '\ue000' = false := by decide +kernel
  have hunassigned : isGraphic '\u0378' = false := by decide +kernel
  exact ⟨⟨by decide +kernel, not_isGoPath_of_mem (by decide) hformat⟩,
    ⟨by decide +kernel, not_isGoPath_of_mem (by decide) hprivate⟩,
    by decide +kernel, not_isGoPath_of_mem (by decide) hunassigned⟩

end SlogHelpers.Source
