import Mathlib.Data.List.Chain
import SlogHelpers.Text.Blank
import SlogHelpers.Text.HiddenTable
import SlogHelpers.Text.Ranges

/-!
The general categories of characters, as far as they decide what is seen of a text: the graphic ones
(letters, marks, numbers, punctuation and symbols) and the classes of all the others. White space
and controls make up two of those classes and no more (`isBlank_or_isControl_iff`).
-/
namespace SlogHelpers.Text

/-- One range begins no later than the next. -/
abbrev Ascending (ranges : List (Nat × Nat)) : Prop := ranges.IsChain (·.1 ≤ ·.1)

/-- Every range of the first list lies in some range of the second. -/
abbrev Within (inner outer : List (Nat × Nat)) : Prop :=
  ∀ r ∈ inner, ∃ s ∈ outer, s.1 ≤ r.1 ∧ r.2 ≤ s.2

/-- Over ascending ranges the search that stops early misses nothing. -/
theorem inRanges_iff {n : Nat} {ranges : List (Nat × Nat)} (h : Ascending ranges) :
    inRanges n ranges = true ↔ ∃ r ∈ ranges, r.1 ≤ n ∧ n ≤ r.2 := by
  refine ⟨exists_range_of_inRanges, ?_⟩
  rintro ⟨r, hr, hlo, hhi⟩
  induction ranges with
  | nil => exact absurd hr List.not_mem_nil
  | cons first rest ih =>
    have hfirst : ∀ s ∈ rest, first.1 ≤ s.1 :=
      (List.pairwise_cons.mp (List.isChain_iff_pairwise.mp h)).1
    -- The range with `n` begins no earlier than this one, so the search does not end here without
    -- it.
    have hbegun : first.1 ≤ n := by
      rcases List.mem_cons.mp hr with rfl | hr
      · exact hlo
      · exact (hfirst r hr).trans hlo
    rw [inRanges, if_neg (by omega)]
    split
    · rfl
    · rename_i hbeyond
      rcases List.mem_cons.mp hr with rfl | hr
      · exact absurd hhi hbeyond
      · exact ih h.of_cons hr

/-- A table that lies within another has all its code points there. -/
theorem inRanges_of_within {n : Nat} {inner outer : List (Nat × Nat)} (hasc : Ascending outer)
    (hin : Within inner outer) (h : inRanges n inner = true) : inRanges n outer = true := by
  obtain ⟨r, hr, hlo, hhi⟩ := exists_range_of_inRanges h
  obtain ⟨s, hs, hslo, hshi⟩ := hin r hr
  exact (inRanges_iff hasc).mpr ⟨s, hs, by omega, by omega⟩

theorem within_of_all {inner outer : List (Nat × Nat)}
    (h : (inner.all fun r => outer.any fun s => s.1.ble r.1 && r.2.ble s.2) = true) :
    Within inner outer := by
  simpa only [List.all_eq_true, List.any_eq_true, Bool.and_eq_true, Nat.ble_eq] using h

def separatorRanges : List (Nat × Nat) := [
    (0xA0, 0xA0), (0x1680, 0x1680), (0x2000, 0x200A), (0x2028, 0x2029), (0x202F, 0x202F),
    (0x205F, 0x205F), (0x3000, 0x3000)]

/-- The general category Cf: marks that steer the layout of the characters around them. -/
def formatRanges : List (Nat × Nat) := [
    (0xAD, 0xAD), (0x600, 0x605), (0x61C, 0x61C), (0x6DD, 0x6DD), (0x70F, 0x70F), (0x890, 0x891),
    (0x8E2, 0x8E2), (0x180E, 0x180E), (0x200B, 0x200F), (0x202A, 0x202E), (0x2060, 0x2064),
    (0x2066, 0x206F), (0xFEFF, 0xFEFF), (0xFFF9, 0xFFFB), (0x110BD, 0x110BD), (0x110CD, 0x110CD),
    (0x13430, 0x1343F), (0x1BCA0, 0x1BCA3), (0x1D173, 0x1D17A), (0xE0001, 0xE0001),
    (0xE0020, 0xE007F)]

def privateUseRanges : List (Nat × Nat) :=
  [(0xE000, 0xF8FF), (0xF0000, 0xFFFFD), (0x100000, 0x10FFFD)]

/-- The general categories L, M, N, P and S: what has a glyph and is no space. -/
def isGraphic (c : Char) : Bool :=
  !inRanges c.toNat blankGlyphRanges && c != ' '

/-- The general categories of characters, those of the graphic ones together. -/
inductive GeneralClass where
  | graphic
  | separator
  | control
  | format
  | privateUse
  | unassigned
  deriving DecidableEq, Repr

/-- The class of a character. What has no glyph and no other reason for it is unassigned. -/
def generalClass (c : Char) : GeneralClass :=
  if c = ' ' ∨ inRanges c.toNat separatorRanges = true then .separator
  else if isControl c = true then .control
  else if inRanges c.toNat formatRanges = true then .format
  else if inRanges c.toNat privateUseRanges = true then .privateUse
  else if inRanges c.toNat blankGlyphRanges = true then .unassigned
  else .graphic

/-! ### Without a glyph -/

theorem ascending_blankGlyphRanges : Ascending blankGlyphRanges := by decide +kernel

theorem within_separatorRanges : Within separatorRanges blankGlyphRanges :=
  within_of_all (by decide +kernel)

theorem within_formatRanges : Within formatRanges blankGlyphRanges :=
  within_of_all (by decide +kernel)

theorem within_privateUseRanges : Within privateUseRanges blankGlyphRanges :=
  within_of_all (by decide +kernel)

theorem inRanges_blankGlyphRanges_of_isControl {c : Char} (h : isControl c = true) :
    inRanges c.toNat blankGlyphRanges = true := by
  have hends : Within [(0, 0x1F), (0x7F, 0x9F)] blankGlyphRanges :=
    within_of_all (by decide +kernel)
  refine inRanges_of_within ascending_blankGlyphRanges hends ?_
  rw [inRanges_iff (by decide)]
  simp only [isControl, Bool.or_eq_true, Bool.and_eq_true, decide_eq_true_eq] at h
  simp only [List.mem_cons, List.not_mem_nil, or_false, exists_eq_or_imp, exists_eq_left]
  omega

/-- The graphic class is the one of the graphic characters. -/
theorem generalClass_eq_graphic_iff (c : Char) : generalClass c = .graphic ↔
    isGraphic c = true := by
  -- Each of the other classes but the space lies in the table of what has no glyph.
  have hwithin {ranges : List (Nat × Nat)} (hin : Within ranges blankGlyphRanges)
      (h : inRanges c.toNat ranges = true) : inRanges c.toNat blankGlyphRanges = true :=
    inRanges_of_within ascending_blankGlyphRanges hin h
  simp only [isGraphic, Bool.and_eq_true, Bool.not_eq_true', bne_iff_ne]
  unfold generalClass
  split
  case isTrue hsep =>
    refine iff_of_false nofun fun ⟨hglyph, hspace⟩ => ?_
    rcases hsep with hsep | hsep
    · exact hspace hsep
    · simp [hwithin within_separatorRanges hsep] at hglyph
  case isFalse hsep =>
    split
    case isTrue hcontrol =>
      simp [inRanges_blankGlyphRanges_of_isControl hcontrol]
    case isFalse =>
      split
      case isTrue hformat => simp [hwithin within_formatRanges hformat]
      case isFalse =>
        split
        case isTrue hprivate => simp [hwithin within_privateUseRanges hprivate]
        case isFalse =>
          split
          case isTrue hblank => simp [hblank]
          case isFalse hblank => simp [hblank, (not_or.mp hsep).1]

/-! ### White space and controls -/

theorem generalClass_mem_separator_control (c : Char) :
    generalClass c ∈ [.separator, .control] ↔
      (c = ' ' ∨ inRanges c.toNat separatorRanges = true) ∨ isControl c = true := by
  unfold generalClass
  split
  case isTrue hsep => simp [hsep]
  case isFalse hsep =>
    split
    case isTrue hcontrol => simp [hcontrol]
    case isFalse hcontrol =>
      refine iff_of_false ?_ (not_or.mpr ⟨hsep, hcontrol⟩)
      repeat' split
      all_goals decide

/-- White space is the separators and some of the controls, so that white space and controls
together make up two classes. -/
theorem isBlank_or_isControl_iff (c : Char) :
    isBlank c = true ∨ isControl c = true ↔ generalClass c ∈ [.separator, .control] := by
  have hspace : c = ' ' ↔ c.toNat = 0x20 := Char.toNat_inj.symm
  rw [generalClass_mem_separator_control, hspace, inRanges_iff (by decide)]
  simp only [separatorRanges, List.mem_cons, List.not_mem_nil, or_false, exists_eq_or_imp,
    exists_eq_left, isBlank, isControl, Bool.or_eq_true, Bool.and_eq_true,
    decide_eq_true_eq, beq_iff_eq]
  omega

end SlogHelpers.Text
