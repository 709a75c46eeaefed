import SlogHelpers.Source.Identifier

/-!
The characters of identifiers.
-/
namespace SlogHelpers.Source

theorem isNameChar_of_mem {cs : List Char} (h : isIdentifierChars cs = true) {c : Char}
    (hc : c ∈ cs) :
    Text.isNameChar c = true := by
  cases cs with
  | nil => cases hc
  | cons d rest =>
    simp only [isIdentifierChars, Bool.and_eq_true, List.all_eq_true] at h
    obtain rfl | hc := List.mem_cons.1 hc
    · simp [Text.isNameChar, h.1.1]
    · exact h.1.2 c hc

theorem not_mem_of_isIdentifier {s : String} {c : Char} (h : isIdentifier s = true)
    (hc : Text.isNameChar c = false) : c ∉ s.toList := by
  intro hm
  rw [isNameChar_of_mem h hm] at hc
  cases hc

theorem not_isIdentifier_of_isKeyword {word : String} (h : isKeyword word = true) :
    isIdentifier word = false := by
  rw [isIdentifier]
  cases hcs : word.toList with
  | nil => rfl
  | cons c rest =>
    rw [isIdentifierChars, ← hcs, String.ofList_toList, h, Bool.not_true, Bool.and_false]

theorem toNat_of_isDigit {c : Char} (h : c.isDigit = true) : 0x30 ≤ c.toNat ∧ c.toNat ≤ 0x39 := by
  simpa [Char.isDigit, UInt32.le_iff_toNat_le] using h

theorem isNameChar_of_isDigit {c : Char} (h : c.isDigit = true) : Text.isNameChar c = true := by
  have hd := toNat_of_isDigit h
  have hn : Text.isDecimalDigit c = true := by
    rw [Text.isDecimalDigit, Text.digitRanges, Text.inRanges, if_neg (by omega), if_pos hd.2]
  rw [Text.isNameChar, hn, Bool.or_true]

theorem isLetter_of_isDigit {c : Char} (h : c.isDigit = true) : Text.isLetter c = false := by
  have hd := toNat_of_isDigit h
  have hc : (c == '_') = false := beq_false_of_ne fun he => by
    subst he
    cases h
  have hr : Text.inRanges c.toNat Text.letterRanges = false := by
    rw [Text.letterRanges, Text.inRanges, if_pos (by omega)]
  rw [Text.isLetter, hc, hr]
  rfl

end SlogHelpers.Source
