import SlogHelpers.Proofs.Source.Delimited

/-!
How literals are written: between two quotes, characters that stand for themselves and a few
escapes. Every quote between them is escaped, so a literal ends at its last character, whatever
follows it.
-/
namespace SlogHelpers.Source.Interpreted

/-! ## Backslashes and quotes -/

/-- Whether a character behind these is escaped: the last of them is a backslash that is not escaped
itself. -/
def escapes (cs : List Char) : Bool :=
  cs.foldl (fun escaped c => !escaped && c == '\\') false

theorem escapes_append {cs more : List Char} (h : escapes cs = false) :
    escapes (cs ++ more) = escapes more := by
  rw [escapes, List.foldl_append]
  rw [escapes] at h
  rw [h, escapes]

/-- Every quote in the text is escaped, and nothing behind the text is escaped by it. -/
structure Closed (cs : List Char) : Prop where
  quotes : ∀ before after, cs = before ++ '"' :: after → escapes before = true
  escapes : escapes cs = false

namespace Closed

variable {cs more : List Char}

theorem append (h : Closed cs) (hm : Closed more) : Closed (cs ++ more) where
  quotes before after hs := by
    obtain ⟨inner, rfl, hrest⟩ | ⟨inner, rfl, hrest⟩ := List.append_eq_append_iff.1 hs
    · rw [escapes_append h.escapes]
      exact hm.quotes inner after hrest
    · cases inner with
      | nil =>
        have hstart := hm.quotes [] after hrest.symm
        cases hstart
      | cons c inner =>
        obtain ⟨rfl, -⟩ := List.cons.inj hrest
        exact h.quotes before inner rfl
  escapes := by rw [escapes_append h.escapes, hm.escapes]

theorem flatten {parts : List (List Char)} (h : ∀ part ∈ parts, Closed part) :
    Closed parts.flatten := by
  induction parts with
  | nil => exact ⟨fun before after hs => by simp at hs, rfl⟩
  | cons part parts ih =>
    obtain ⟨hpart, hparts⟩ := List.forall_mem_cons.1 h
    exact hpart.append (ih hparts)

theorem of_not_mem (hquote : '"' ∉ cs) (hslash : '\\' ∉ cs) : Closed cs where
  quotes before after hs := absurd (hs ▸ List.mem_append_cons_self) hquote
  escapes := by
    rw [Interpreted.escapes]
    induction cs with
    | nil => rfl
    | cons c cs ih =>
      have hc : (c == '\\') = false := beq_false_of_ne (List.ne_of_not_mem_cons hslash).symm
      rw [List.foldl_cons, hc, Bool.and_false]
      exact ih (List.not_mem_of_not_mem_cons hquote) (List.not_mem_of_not_mem_cons hslash)

/-- A backslash takes the character behind it, whatever that is. -/
theorem escaped (c : Char) : Closed ['\\', c] where
  quotes before after hs := by
    match before with
    | [] => cases hs
    | [d] =>
      obtain ⟨rfl, -⟩ := List.cons.inj hs
      rfl
    | d :: e :: before => simp at hs
  escapes := rfl

end Closed

/-! ## Spellings -/

/-- A character that stands for itself in a literal, or one of the escapes that literals are written
with. -/
inductive Spelling : List Char → Prop where
  | plain {c : Char} (hquote : c ≠ '"') (hslash : c ≠ '\\') (hcontrol : Text.isControl c = false) :
    Spelling [c]
  | letter {c : Char} (hc : c ∈ ['"', '\\', 'n', 'r', 't']) : Spelling ['\\', c]
  | code {digits : List Char} (hlength : digits.length = 4)
      (hdigits : ∀ d ∈ digits, (Text.hexDigit? d).isSome = true) : Spelling ('\\' :: 'u' :: digits)

theorem Spelling.closed {part : List Char} (h : Spelling part) : Closed part := by
  cases h with
  | plain hquote hslash _ =>
    exact .of_not_mem (mt List.mem_singleton.1 hquote.symm) (mt List.mem_singleton.1 hslash.symm)
  | letter _ => exact .escaped _
  | @code digits _ hdigits =>
    have hquote : '"' ∉ digits := fun hm => by cases hdigits _ hm
    have hslash : '\\' ∉ digits := fun hm => by cases hdigits _ hm
    exact (Closed.escaped 'u').append (.of_not_mem hquote hslash)

theorem isHexDigit_of_mem_toDigits {n : Nat} {d : Char} (h : d ∈ Nat.toDigits 16 n) :
    (Text.hexDigit? d).isSome = true := by
  have hdigit : ∀ m < 16, (Text.hexDigit? m.digitChar).isSome = true := by decide
  induction n using Nat.strongRecOn with
  | ind n ih =>
    by_cases hn : n < 16
    · rw [Nat.toDigits_of_lt_base hn] at h
      obtain rfl := List.mem_singleton.1 h
      exact hdigit n hn
    · rw [Nat.toDigits_of_base_le (by decide) (by omega)] at h
      obtain h | h := List.mem_append.1 h
      · exact ih (n / 16) (by omega) h
      · obtain rfl := List.mem_singleton.1 h
        exact hdigit (n % 16) (by omega)

theorem isHexDigit_of_mem_hex {width n : Nat} {d : Char} (h : d ∈ (Text.hex width n).toList) :
    (Text.hexDigit? d).isSome = true := by
  rw [Text.hex, String.toList_ofList] at h
  obtain h | h := List.mem_append.1 h
  · rw [List.eq_of_mem_replicate h]
    rfl
  · exact isHexDigit_of_mem_toDigits h

theorem spelling_literalChar (c : Char) : Spelling (literalChar c) := by
  rw [literalChar.eq_def]
  split
  · exact .letter (by decide)
  · exact .letter (by decide)
  · exact .letter (by decide)
  · exact .letter (by decide)
  · exact .letter (by decide)
  · next hquote hslash _ _ _ =>
    split
    · next hcontrol =>
      obtain ⟨⟨hlength, -⟩, -⟩ := hex_four_of_isControl hcontrol
      exact .code hlength fun d hd => isHexDigit_of_mem_hex hd
    · next hcontrol => exact .plain hquote hslash (Bool.eq_false_iff.2 hcontrol)

/-! ## Literals -/

/-- The characters are those of an interpreted literal that stands for the text. -/
structure Writes (written : List Char) (s : String) : Prop where
  /-- Two quotes, and nothing but characters that stand for themselves and escapes of few kinds
  between them. -/
  spelled : ∃ parts : List (List Char), written = '"' :: parts.flatten ++ ['"'] ∧
    ∀ part ∈ parts, Spelling part
  printed : ∀ c ∈ written, Text.isControl c = false
  quotes : ∀ before after, written = before ++ '"' :: after →
    (escapes before = false ↔ before = [] ∨ after = [])
  /-- Read as far as the closing quote, whatever follows it. -/
  read : ∀ rest, text? (written ++ rest) = some (s, rest)

theorem literal_eq_parts (s : String) :
    (literal s).toList = '"' :: (s.toList.map literalChar).flatten ++ ['"'] := by
  rw [literal, String.toList_ofList, List.flatMap_def]

theorem escapes_iff {body before after : List Char} (hbody : Closed body)
    (h : '"' :: body ++ ['"'] = before ++ '"' :: after) : escapes before = false ↔
      before = [] ∨ after = [] := by
  cases before with
  | nil => exact iff_of_true rfl (.inl rfl)
  | cons d before =>
    obtain ⟨rfl, hrest⟩ := List.cons.inj h
    have hskip : escapes ('"' :: before) = escapes before := rfl
    rw [hskip]
    -- It is the quote at the end, behind all of the body, or one within the body.
    obtain ⟨rfl, -, rfl⟩ | ⟨rest, rfl, hinner⟩ := Lists.append_singleton_eq_append_cons hrest
    · exact iff_of_true hbody.escapes (.inr rfl)
    · rw [hbody.quotes before rest hinner]
      simp

theorem spelling_of_mem {s : String} {part : List Char} (h : part ∈ s.toList.map literalChar) :
    Spelling part := by
  obtain ⟨c, -, rfl⟩ := List.mem_map.1 h
  exact spelling_literalChar c

theorem writes_literal (s : String) : Writes (literal s).toList s where
  spelled := ⟨s.toList.map literalChar, literal_eq_parts s, fun _ => spelling_of_mem⟩
  printed c hc := isControl_of_mem_literal hc
  quotes before after h := by
    rw [literal_eq_parts] at h
    exact escapes_iff (Closed.flatten fun _ hp => (spelling_of_mem hp).closed) h
  read := text?_literal s

/-- A literal is written in a few spellings, ends where its text does and is read as that text; so
it is the literal of no other one. -/
theorem literal_writes : (∀ s, Writes (literal s).toList s) ∧ Function.Injective literal := by
  refine ⟨writes_literal, fun s t h => ?_⟩
  have htexts : (literal s).toList ++ [] = (literal t).toList ++ [] := by rw [h]
  exact (literal_delimited trivial trivial beginsIn_nil beginsIn_nil htexts).1

/-- Quotes and backslashes side by side, and controls of either kind. -/
example : literal "\\\"\x7f\n" = "\"\\\\\\\"\\u007f\\n\"" := by decide

end SlogHelpers.Source.Interpreted
