import SlogHelpers.Severity

/-!
The decimal text of a severity, read as a constant of Go and as the text of an option.
-/
namespace SlogHelpers.Severity

/-- The number that a decimal literal of Go tells; with a zero in front, it would be none. -/
def decimal? (digits : List Char) : Option Nat :=
  if digits = ['0'] ∨ (digits ≠ [] ∧ digits.head? ≠ some '0' ∧ digits.all Char.isDigit = true) then
    some (Nat.ofDigitChars 10 digits 0)
  else none

/-- The severity that a constant tells: a decimal literal, perhaps behind a minus sign. -/
def ofConstant? (cs : List Char) : Option Severity :=
  if cs.head? = some '-' then (decimal? cs.tail).bind fun n => ofInt? (-n)
  else (decimal? cs).bind fun n => ofInt? n

theorem head?_toDigits_ne_zero {n : Nat} (h : n ≠ 0) : (Nat.toDigits 10 n).head? ≠ some '0' := by
  induction n using Nat.strongRecOn with
  | ind n ih =>
    by_cases hn : n < 10
    · have hall : ∀ d < 10, d ≠ 0 → d.digitChar ≠ '0' := by decide
      rw [Nat.toDigits_of_lt_base hn]
      simpa using hall n hn h
    · have hdiv : n / 10 ≠ 0 := by omega
      have hi := ih (n / 10) (by omega) hdiv
      obtain ⟨d, ds, hds⟩ :=
        List.exists_cons_of_ne_nil (Nat.toDigits_ne_nil (n := n / 10) (b := 10))
      rw [hds] at hi
      rw [Nat.toDigits_of_base_le (by decide) (by omega), hds]
      exact hi

theorem decimal?_toDigits (n : Nat) : decimal? (Nat.toDigits 10 n) = some n := by
  have hd : (Nat.toDigits 10 n).all Char.isDigit = true :=
    List.all_eq_true.2 fun c hc => Nat.isDigit_of_mem_toDigits (by decide) (by decide) hc
  rw [decimal?, if_pos, Nat.ofDigitChars_ten_toDigits]
  by_cases hn : n = 0
  · subst hn
    exact .inl (Nat.toDigits_zero 10)
  · exact .inr ⟨Nat.toDigits_ne_nil, head?_toDigits_ne_zero hn, hd⟩

theorem head?_toDigits_ne_minus (n : Nat) : (Nat.toDigits 10 n).head? ≠ some '-' := by
  intro h
  have hd := Nat.isDigit_of_mem_toDigits (by decide) (by decide) (List.mem_of_head? h)
  cases hd

theorem ofInt?_toInt (s : Severity) : ofInt? s.toInt = some s := by
  rw [ofInt?, dif_pos ⟨s.min_le, s.lt_max⟩]

theorem text_toList (s : Severity) :
    s.text.toList = if s.toInt < 0 then '-' :: Nat.toDigits 10 s.toInt.natAbs
      else Nat.toDigits 10 s.toInt.natAbs := by
  by_cases hs : s.toInt < 0
  · simp [text, hs]
  · simp [text, hs]

theorem ofConstant?_text (s : Severity) : ofConstant? s.text.toList = some s := by
  rw [text_toList]
  split
  · next hs =>
    have hn : (-(s.toInt.natAbs : Int)) = s.toInt := by omega
    rw [ofConstant?, List.head?_cons, if_pos rfl, List.tail_cons, decimal?_toDigits,
      Option.bind_some, hn, ofInt?_toInt]
  · next hs =>
    have hn : (s.toInt.natAbs : Int) = s.toInt := by omega
    rw [ofConstant?, if_neg (head?_toDigits_ne_minus _), decimal?_toDigits, Option.bind_some, hn,
      ofInt?_toInt]

theorem not_mem_text (s : Severity) {c : Char} (hd : c.isDigit = false) (hm : c ≠ '-') :
    c ∉ s.text.toList := by
  have hdigits : c ∉ Nat.toDigits 10 s.toInt.natAbs := by
    intro h
    rw [Nat.isDigit_of_mem_toDigits (by decide) (by decide) h] at hd
    cases hd
  rw [text_toList]
  split
  · simp [hm, hdigits]
  · exact hdigits

theorem newline_not_mem_text (s : Severity) : '\n' ∉ s.text.toList :=
  s.not_mem_text rfl (by decide)

/-! ## The text of an option -/

theorem digit?_eq (c : Char) :
    digit? c = if c.isDigit then some (c.toNat - '0'.toNat) else none := by
  have h : ('0' ≤ c ∧ c ≤ '9') ↔ c.isDigit = true := by
    simp [Char.isDigit, Char.le_def, UInt32.le_iff_toNat_le]
  simp only [digit?, h]

theorem le_ofDigitChars (value : Nat) (cs : List Char) : value ≤ Nat.ofDigitChars 10 cs value := by
  induction cs generalizing value with
  | nil => exact Nat.le_refl value
  | cons c cs ih =>
    rw [Nat.ofDigitChars_cons]
    have h := ih (10 * value + (c.toNat - '0'.toNat))
    omega

variable {limit value n : Nat} {beyond : Fault} {s : Severity}

/-- Digits are read as their number, as long as it stays within the limit. -/
theorem readDigits_eq_ok {cs : List Char} (hv : value ≤ limit) :
    readDigits limit beyond value cs = .ok n ↔
      (∀ c ∈ cs, c.isDigit = true) ∧ Nat.ofDigitChars 10 cs value = n ∧ n ≤ limit := by
  induction cs generalizing value with
  | nil =>
    constructor
    · intro h
      cases h
      exact ⟨fun c hc => absurd hc List.not_mem_nil, rfl, hv⟩
    · rintro ⟨-, rfl, -⟩
      rfl
  | cons c cs ih =>
    rw [readDigits, digit?_eq, List.forall_mem_cons, Nat.ofDigitChars_cons, Nat.mul_comm 10 value]
    by_cases hc : c.isDigit = true
    · rw [if_pos hc]
      dsimp only
      by_cases hl : value * 10 + (c.toNat - '0'.toNat) ≤ limit
      · rw [if_pos hl, ih hl, and_iff_right hc]
      · -- Further digits only make the value greater.
        have hle := le_ofDigitChars (value * 10 + (c.toNat - '0'.toNat)) cs
        rw [if_neg hl]
        constructor
        · intro h
          cases h
        · intro h
          omega
    · simp [hc]

theorem readUnsigned_toDigits (h : n ≤ limit) :
    readUnsigned limit beyond (Nat.toDigits 10 n) = .ok ⟨n, h⟩ := by
  obtain ⟨c, cs, hcs⟩ := List.exists_cons_of_ne_nil (Nat.toDigits_ne_nil (n := n) (b := 10))
  have hr : readDigits limit beyond 0 (Nat.toDigits 10 n) = .ok n :=
    (readDigits_eq_ok (Nat.zero_le limit)).2
      ⟨fun c hc =>
        Nat.isDigit_of_mem_toDigits (by decide) (by decide) hc, Nat.ofDigitChars_ten_toDigits, h⟩
  rw [hcs] at hr ⊢
  rw [readUnsigned]
  split
  · next m hm =>
    rw [hr] at hm
    cases hm
    rfl
  · next fault hf =>
    rw [hr] at hf
    cases hf

theorem read_text (s : Severity) : read s.text = .ok s := by
  have hmin := s.min_le
  have hmax := s.lt_max
  by_cases hs : s.toInt < 0
  · have hn : s.toInt.natAbs ≤ 0x8000000000000000 := by omega
    rw [read, text_toList, if_pos hs]
    simp only [readUnsigned_toDigits hn]
    exact congrArg Except.ok (ext (show -(s.toInt.natAbs : Int) = s.toInt by omega))
  · have hn : s.toInt.natAbs ≤ 0x7FFFFFFFFFFFFFFF := by omega
    have hd : ∀ c, c.isDigit = false → (Nat.toDigits 10 s.toInt.natAbs).head? ≠ some c := by
      intro c hc h
      have hdigit := Nat.isDigit_of_mem_toDigits (by decide) (by decide) (List.mem_of_head? h)
      rw [hc] at hdigit
      cases hdigit
    rw [read, text_toList, if_neg hs]
    split
    · next he => exact absurd he Nat.toDigits_ne_nil
    · next he => exact absurd (by rw [he]; rfl) (hd '-' rfl)
    · next he => exact absurd (by rw [he]; rfl) (hd '+' rfl)
    · rw [readUnsigned_toDigits hn]
      exact congrArg Except.ok (ext (show (s.toInt.natAbs : Int) = s.toInt by omega))

end SlogHelpers.Severity
