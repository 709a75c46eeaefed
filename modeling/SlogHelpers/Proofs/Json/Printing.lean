import SlogHelpers.Json.Printer
import SlogHelpers.Proofs.Json.Grammar
import SlogHelpers.Proofs.Severity

/-!
A value without gaps is spelled by its printed text, whatever its strings hold.
-/
namespace SlogHelpers.Json

mutual

/-- Every list and object is closed, and every number is an integer of 64 bits. -/
def Whole : Json → Prop
  | .number (.integer value) => -0x8000000000000000 ≤ value ∧ value ≤ maxWord
  | .number (.float _ _) => False
  | .array items closed => closed = true ∧ WholeItems items
  | .object members closed => closed = true ∧ WholeMembers members
  | .broken => False
  | _ => True

def WholeItems : List Json → Prop
  | [] => True
  | item :: rest => Whole item ∧ WholeItems rest

def WholeMembers : List (String × Json) → Prop
  | [] => True
  | (_, value) :: rest => Whole value ∧ WholeMembers rest

end

/-! ## Strings -/

theorem isCode_hex {n : Nat} (h : n < 0x20) : IsCode (Text.hex 4 n).toList n := by
  have hall : ∀ m < 0x20, (Text.hex 4 m).toList.length = 4 ∧
      Text.digitsIn? 16 (Text.hex 4 m).toList = some m := by
    decide +kernel
  exact hall n h

theorem spelledChar_printedChar (c : Char) : SpelledChar c (printedChar c) := by
  unfold printedChar
  split
  · exact @SpelledChar.letter '"' _ (by decide)
  · exact @SpelledChar.letter '\\' _ (by decide)
  · exact @SpelledChar.letter 'b' _ (by decide)
  · exact @SpelledChar.letter 't' _ (by decide)
  · exact @SpelledChar.letter 'n' _ (by decide)
  · exact @SpelledChar.letter 'f' _ (by decide)
  · exact @SpelledChar.letter 'r' _ (by decide)
  · next hq hs _ _ _ _ _ =>
    split
    · next hlt => exact .code (isCode_hex hlt)
    · next hlt => exact .plain (by omega) hq hs

theorem spelledChars_flatMap (cs : List Char) : SpelledChars cs (cs.flatMap printedChar) := by
  induction cs with
  | nil => exact .nil
  | cons c cs ih => exact .cons (spelledChar_printedChar c) ih

theorem spelledString_printedString (s : String) : SpelledString s (printedString s) :=
  .quoted (spelledChars_flatMap s.toList)

/-! ## Numbers -/

def Numeral.ofInt (value : Int) : Numeral :=
  ⟨decide (value < 0), Nat.toDigits 10 value.natAbs, none, none⟩

theorem Numeral.wellFormed_ofInt (value : Int) : (ofInt value).WellFormed where
  whole := ⟨Nat.toDigits_ne_nil, fun _ hd => Nat.isDigit_of_mem_toDigits (by decide) (by decide) hd⟩
  leading h := by
    by_cases hn : value.natAbs = 0
    · rw [ofInt, hn]
      rfl
    · exact absurd h (Severity.head?_toDigits_ne_zero hn)
  fraction _ h := by cases h
  exponent _ h := by cases h

theorem Numeral.text_ofInt (value : Int) : (ofInt value).text = (toString value).toList := by
  cases value with
  | ofNat n =>
    have hn : ¬ (Int.ofNat n < 0) := Int.not_lt.2 (Int.natCast_nonneg n)
    have hs : toString (Int.ofNat n) = toString n := rfl
    rw [text, ofInt, decide_eq_false hn, hs]
    simp
  | negSucc n =>
    have hs : toString (Int.negSucc n) = "-" ++ toString (n + 1) := rfl
    rw [text, ofInt, decide_eq_true (Int.negSucc_lt_zero n), hs]
    simp

theorem Numeral.number?_ofInt {value : Int} (h : -0x8000000000000000 ≤ value ∧ value ≤ maxWord) :
    (ofInt value).number? = some (.integer value) := by
  have hm : maxWord = 0xFFFFFFFFFFFFFFFF := rfl
  have hi : (ofInt value).integer? = some value := by
    rw [integer?, ofInt]
    simp only [Nat.ofDigitChars_ten_toDigits]
    by_cases hn : value < 0
    · rw [if_neg (by simp), if_pos (by simpa using hn), if_pos (by omega)]
      exact congrArg some (by omega)
    · rw [if_neg (by simp), if_neg (by simpa using hn), if_pos (by omega)]
      exact congrArg some (by omega)
  rw [number?, hi]

/-! ## Values -/

theorem spaces_newLine (depth : Nat) : Spaces (newLine depth) := by
  intro c hc
  rcases List.mem_cons.1 hc with rfl | hc
  · exact .inr (.inr (.inl rfl))
  · exact .inl (List.eq_of_mem_replicate hc)

/-- Parts on lines of their own, the last one with the line break behind it. -/
def lines (depth : Nat) (parts : List (List Char)) : List Char :=
  List.intercalate [','] (parts.map (newLine (depth + 1) ++ ·)) ++ newLine depth

theorem lines_single (depth : Nat) (part : List Char) :
    lines depth [part] = newLine (depth + 1) ++ part ++ newLine depth := by
  simp [lines]

theorem lines_cons (depth : Nat) (part next : List Char) (parts : List (List Char)) :
    lines depth (part :: next :: parts) =
      newLine (depth + 1) ++ part ++ ',' :: lines depth (next :: parts) := by
  simp [lines, List.intercalate_cons_cons]

theorem enclosed_cons (depth : Nat) (opening closing : Char) (part : List Char)
    (parts : List (List Char)) :
    enclosed depth opening closing (part :: parts) =
      opening :: lines depth (part :: parts) ++ [closing] := by
  simp [enclosed, lines]

mutual

theorem spelled_printed (depth : Nat) : ∀ json : Json, json.Whole →
    Spelled (.value json) (printed depth json)
  | .null, _ => .null
  | .bool true, _ => .true
  | .bool false, _ => .false
  | .number (.integer value), h => by
    rw [printed, Number.printed, ← Numeral.text_ofInt]
    exact .number (Numeral.wellFormed_ofInt value) (Numeral.number?_ofInt h)
  | .number (.float _ _), h => h.elim
  | .string value, _ => .string (spelledString_printedString value)
  | .array [] true, _ => .emptyArray (w := []) (by rintro c ⟨⟩)
  | .array (item :: rest) true, h => by
    rw [printed, printedItems, enclosed_cons, ← printedItems]
    exact .array (spelled_printedItems depth (item :: rest) h.2 (List.cons_ne_nil _ _))
  | .object [] true, _ => .emptyObject (w := []) (by rintro c ⟨⟩)
  | .object (member :: rest) true, h => by
    rw [printed, printedMembers, enclosed_cons, ← printedMembers]
    exact .object (spelled_printedMembers depth (member :: rest) h.2 (List.cons_ne_nil _ _))
  | .array _ false, h => nomatch h.1
  | .object _ false, h => nomatch h.1
  | .broken, h => h.elim

theorem spelled_printedItems (depth : Nat) : ∀ items : List Json, WholeItems items → items ≠ [] →
    Spelled (.elements items) (lines depth (printedItems (depth + 1) items))
  | [], _, h => absurd rfl h
  | [item], h, _ => by
    rw [printedItems, printedItems, lines_single]
    exact .lastElement
      (.element (spaces_newLine _) (spelled_printed (depth + 1) item h.1) (spaces_newLine _))
  | item :: next :: rest, h, _ => by
    rw [printedItems, printedItems, lines_cons, ← printedItems,
      ← List.append_nil (_ ++ printed _ item)]
    exact .moreElements
      (.element (spaces_newLine _) (spelled_printed (depth + 1) item h.1) (by rintro c ⟨⟩))
      (spelled_printedItems depth (next :: rest) h.2 (List.cons_ne_nil _ _))

theorem spelled_printedMembers (depth : Nat) :
    ∀ members : List (String × Json), WholeMembers members → members ≠ [] →
    Spelled (.members members) (lines depth (printedMembers (depth + 1) members))
  | [], _, h => absurd rfl h
  | [(name, value)], h, _ => by
    have hs :=
      Spelled.lastMember (spaces_newLine (depth + 1)) (spelledString_printedString name) (w := [])
      (by rintro c ⟨⟩)
        (.element (u := [' ']) (by simp [Spaces]) (spelled_printed (depth + 1) value h.1)
        (spaces_newLine depth))
    rw [printedMembers, printedMembers, lines_single]
    simpa using hs
  | (name, value) :: next :: rest, h, _ => by
    have hs :=
      Spelled.moreMembers (spaces_newLine (depth + 1)) (spelledString_printedString name) (w := [])
      (by rintro c ⟨⟩)
        (.element (u := [' ']) (by simp [Spaces]) (spelled_printed (depth + 1) value h.1) (w := [])
        (by rintro c ⟨⟩)) (spelled_printedMembers depth (next :: rest) h.2 (List.cons_ne_nil _ _))
    rw [printedMembers, printedMembers, lines_cons, ← printedMembers]
    simpa using hs

end

theorem spells_printed {json : Json} (h : json.Whole) : Spells (printed 0 json) json := by
  have hs :=
    Spelled.element (u := []) (w := []) (by rintro c ⟨⟩) (spelled_printed 0 json h) (by rintro c ⟨⟩)
  rwa [List.nil_append, List.append_nil] at hs

end SlogHelpers.Json
