import SlogHelpers.Proofs.Fallible
import SlogHelpers.Proofs.Severity

/-!
Which texts are severities, and what is wrong with the others: a severity is an optional sign and
decimal digits whose number is in range. Of any other text, the first thing from the left that
stands in the way of that is told; digits that lead out of range stand in the way as soon as they
do, whatever follows them.
-/
namespace SlogHelpers.Severity
open Fallible

/-! ## Digits -/

section Digits

variable {limit value : Nat} {beyond fault : Fault} {cs digits rest : List Char} {c : Char}

theorem readDigits_cons (hc : c.isDigit = true) :
    readDigits limit beyond value (c :: cs) =
      if 10 * value + (c.toNat - '0'.toNat) ≤ limit then
        readDigits limit beyond (10 * value + (c.toNat - '0'.toNat)) cs
      else .error beyond := by
  rw [readDigits, digit?_eq, if_pos hc, Nat.mul_comm 10 value]

theorem readDigits_cons_of_not_digit (hc : c.isDigit = false) :
    readDigits limit beyond value (c :: cs) = .error .invalidDigit := by
  simp [readDigits, digit?_eq, hc]

theorem readDigits_append (hd : ∀ d ∈ digits, d.isDigit = true)
    (hl : Nat.ofDigitChars 10 digits value ≤ limit) :
    readDigits limit beyond value (digits ++ rest) =
      readDigits limit beyond (Nat.ofDigitChars 10 digits value) rest := by
  induction digits generalizing value with
  | nil => rw [List.nil_append, Nat.ofDigitChars_nil]
  | cons d digits ih =>
    obtain ⟨hdigit, hdigits⟩ := List.forall_mem_cons.1 hd
    rw [Nat.ofDigitChars_cons] at hl ⊢
    rw [List.cons_append, readDigits_cons hdigit,
      if_pos (Nat.le_trans (le_ofDigitChars _ digits) hl), ih hdigits hl]

theorem readDigits_of_beyond (hv : value ≤ limit) (hd : ∀ d ∈ digits, d.isDigit = true)
    (hl : limit < Nat.ofDigitChars 10 digits value) :
    readDigits limit beyond value (digits ++ rest) = .error beyond := by
  induction digits generalizing value with
  | nil =>
    rw [Nat.ofDigitChars_nil] at hl
    omega
  | cons d digits ih =>
    obtain ⟨hdigit, hdigits⟩ := List.forall_mem_cons.1 hd
    rw [Nat.ofDigitChars_cons] at hl
    rw [List.cons_append, readDigits_cons hdigit]
    -- Either this digit leads out of range, or one of those behind it does from a value in range.
    split
    · next hstep => exact ih hstep hdigits hl
    · rfl

/-- What keeps digits behind `value` from being read: a character that is none, or a number beyond
the limit. -/
inductive Obstructed (limit : Nat) (beyond : Fault) (value : Nat) : List Char → Fault → Prop where
  | invalid {digits : List Char} {c : Char} (rest : List Char) (hd : ∀ d ∈ digits, d.isDigit = true)
      (hl : Nat.ofDigitChars 10 digits value ≤ limit) (hc : c.isDigit = false) :
      Obstructed limit beyond value (digits ++ c :: rest) .invalidDigit
  | outgrown {digits : List Char} (rest : List Char) (hd : ∀ d ∈ digits, d.isDigit = true)
      (hl : limit < Nat.ofDigitChars 10 digits value) :
      Obstructed limit beyond value (digits ++ rest) beyond

theorem Obstructed.cons (hc : c.isDigit = true)
    (h : Obstructed limit beyond (10 * value + (c.toNat - '0'.toNat)) cs fault) :
    Obstructed limit beyond value (c :: cs) fault := by
  have hall {digits : List Char} (hd : ∀ d ∈ digits, d.isDigit = true) :
      ∀ d ∈ c :: digits, d.isDigit = true :=
    List.forall_mem_cons.2 ⟨hc, hd⟩
  cases h with
  | invalid rest hd hl hn =>
    rw [← Nat.ofDigitChars_cons] at hl
    exact .invalid rest (hall hd) hl hn
  | outgrown rest hd hl =>
    rw [← Nat.ofDigitChars_cons] at hl
    exact .outgrown rest (hall hd) hl

theorem obstructed_of_readDigits (hv : value ≤ limit)
    (h : readDigits limit beyond value cs = .error fault) :
    Obstructed limit beyond value cs fault := by
  induction cs generalizing value with
  | nil => cases h
  | cons c cs ih =>
    cases hc : c.isDigit with
    | false =>
      rw [readDigits_cons_of_not_digit hc] at h
      cases h
      have hstart : Obstructed limit beyond value ([] ++ c :: cs) .invalidDigit :=
        .invalid cs nofun hv hc
      exact hstart
    | true =>
      rw [readDigits_cons hc] at h
      split at h
      · next hstep => exact (ih hstep h).cons hc
      · next hstep =>
        cases h
        have hl : limit < Nat.ofDigitChars 10 [c] value := by
          rw [Nat.ofDigitChars_cons, Nat.ofDigitChars_nil]
          omega
        have hstart : Obstructed limit beyond value ([c] ++ cs) beyond :=
          .outgrown cs (List.forall_mem_singleton.2 hc) hl
        exact hstart

theorem readDigits_eq_error (hv : value ≤ limit) :
    readDigits limit beyond value cs = .error fault ↔ Obstructed limit beyond value cs fault := by
  refine ⟨obstructed_of_readDigits hv, fun h => ?_⟩
  cases h with
  | invalid rest hd hl hc => rw [readDigits_append hd hl, readDigits_cons_of_not_digit hc]
  | outgrown rest hd hl => exact readDigits_of_beyond hv hd hl

theorem readUnsigned_eq_ok {n : { n : Nat // n ≤ limit }} :
    readUnsigned limit beyond cs = .ok n ↔ cs ≠ [] ∧ readDigits limit beyond 0 cs = .ok n.1 := by
  cases cs with
  | nil => exact iff_of_false nofun fun h => h.1 rfl
  | cons c rest =>
    rw [readUnsigned, and_iff_right (List.cons_ne_nil c rest)]
    split
    · next m hm => simp [hm, Subtype.ext_iff]
    · next fault hf => simp [hf]

theorem readUnsigned_eq_error :
    readUnsigned limit beyond cs = .error fault ↔
      (cs = [] ∧ fault = .invalidDigit) ∨ (cs ≠ [] ∧ Obstructed limit beyond 0 cs fault) := by
  rw [← readDigits_eq_error (Nat.zero_le limit)]
  cases cs with
  | nil => simp [readUnsigned, eq_comm]
  | cons c rest =>
    rw [readUnsigned]
    split
    · next m hm => simp [hm]
    · next cause hf => simp [hf]

end Digits

/-! ## Signs -/

inductive Sign where
  | absent
  | plus
  | minus
  deriving DecidableEq

namespace Sign

def text : Sign → List Char
  | absent => []
  | plus => ['+']
  | minus => ['-']

def apply (sign : Sign) (n : Nat) : Int :=
  match sign with
  | minus => -n
  | _ => n

def limit : Sign → Nat
  | minus => 0x8000000000000000
  | _ => 0x7FFFFFFFFFFFFFFF

def beyond : Sign → Fault
  | minus => .tooSmall
  | _ => .tooLarge

/-- Whether the characters stand behind the sign and nothing of them is a sign itself. -/
def Precedes (sign : Sign) (cs : List Char) : Prop :=
  sign = absent → ∃ c rest, cs = c :: rest ∧ c ≠ '+' ∧ c ≠ '-'

end Sign

def InRange (k : Int) : Prop := -0x8000000000000000 ≤ k ∧ k ≤ 0x7FFFFFFFFFFFFFFF

variable {sign : Sign} {s : String} {cs : List Char}

theorem inRange_iff {n : Nat} : InRange (sign.apply n) ↔ n ≤ sign.limit := by
  cases sign with
  | absent => simp only [InRange, Sign.apply, Sign.limit]; omega
  | plus => simp only [InRange, Sign.apply, Sign.limit]; omega
  | minus => simp only [InRange, Sign.apply, Sign.limit]; omega

theorem inRange_toInt (severity : Severity) : InRange severity.toInt := by
  have hmin := severity.min_le
  have hmax := severity.lt_max
  rw [InRange]
  omega

theorem exists_sign (h : cs ≠ []) :
    ∃ sign : Sign, ∃ rest, cs = sign.text ++ rest ∧ sign.Precedes rest := by
  obtain ⟨c, rest, rfl⟩ := List.exists_cons_of_ne_nil h
  by_cases hplus : c = '+'
  · exact ⟨.plus, rest, by rw [hplus]; rfl, nofun⟩
  by_cases hminus : c = '-'
  · exact ⟨.minus, rest, by rw [hminus]; rfl, nofun⟩
  exact ⟨.absent, c :: rest, rfl, fun _ => ⟨c, rest, rfl, hplus, hminus⟩⟩

theorem map_bind_pure {α : Type} {result : Except Fault α} {severity : α → Severity}
    {number : α → Int} (h : ∀ a, (severity a).toInt = number a) :
    (result >>= fun a => pure (severity a)).map toInt = result.map number := by
  cases result with
  | error fault => rfl
  | ok a => exact congrArg Except.ok (h a)

/-- A text is read by what stands behind its sign. -/
theorem map_read (hs : s.toList = sign.text ++ cs) (hcs : sign.Precedes cs) :
    (read s).map toInt = (readUnsigned sign.limit sign.beyond cs).map fun n => sign.apply n.1 := by
  cases sign with
  | plus =>
    rw [read, hs]
    exact map_bind_pure fun _ => rfl
  | minus =>
    rw [read, hs]
    exact map_bind_pure fun _ => rfl
  | absent =>
    obtain ⟨c, rest, rfl, hplus, hminus⟩ := hcs rfl
    rw [read, hs, Sign.text, List.nil_append]
    split
    · next he => cases he
    · next he => exact absurd (List.cons.inj he).1 hminus
    · next he => exact absurd (List.cons.inj he).1 hplus
    · exact map_bind_pure fun _ => rfl

theorem read_eq_ok_of_sign {severity : Severity} (hs : s.toList = sign.text ++ cs)
    (hcs : sign.Precedes cs) :
    read s = .ok severity ↔
      ∃ n, readUnsigned sign.limit sign.beyond cs = .ok n ∧ sign.apply n.1 = severity.toInt := by
  have hnumber : read s = .ok severity ↔ (read s).map toInt = .ok severity.toInt := by
    rw [map_eq_ok]
    exact ⟨fun h => ⟨severity, h, rfl⟩, fun ⟨found, h, he⟩ => by rw [h, ext he]⟩
  rw [hnumber, map_read hs hcs, map_eq_ok]

theorem read_eq_error_of_sign {fault : Fault} (hs : s.toList = sign.text ++ cs)
    (hcs : sign.Precedes cs) :
    read s = .error fault ↔ readUnsigned sign.limit sign.beyond cs = .error fault := by
  rw [← map_eq_error (f := toInt), map_read hs hcs, map_eq_error]

/-! ## Whole texts -/

/-- The text is an optional sign and digits, and `k` is their number. -/
def Tells (text : List Char) (k : Int) : Prop :=
  ∃ (sign : Sign) (digits : List Char), text = sign.text ++ digits ∧ digits ≠ [] ∧
    (∀ d ∈ digits, d.isDigit = true) ∧ k = sign.apply (Nat.ofDigitChars 10 digits 0)

/-- The first thing from the left by which a text is no severity. -/
inductive FirstProblem : List Char → Fault → Prop where
  | empty : FirstProblem [] .empty
  | loneSign {sign : Sign} (hs : sign ≠ .absent) : FirstProblem sign.text .invalidDigit
  /-- A character that is no digit, and no sign at the very start, behind digits whose number is in
  range. -/
  | invalidDigit {sign : Sign} {digits : List Char} {c : Char} (rest : List Char)
      (hd : ∀ d ∈ digits, d.isDigit = true)
      (hr : InRange (sign.apply (Nat.ofDigitChars 10 digits 0)))
      (hc : c.isDigit = false) (hs : sign = .absent → digits = [] → c ≠ '+' ∧ c ≠ '-') :
      FirstProblem (sign.text ++ digits ++ c :: rest) .invalidDigit
  /-- Digits whose number is out of range, with anything behind them. -/
  | outOfRange {sign : Sign} {digits : List Char} (rest : List Char)
      (hd : ∀ d ∈ digits, d.isDigit = true)
      (hr : ¬ InRange (sign.apply (Nat.ofDigitChars 10 digits 0))) :
      FirstProblem (sign.text ++ digits ++ rest) sign.beyond

theorem precedes_digits {digits rest : List Char} (hd : ∀ d ∈ digits, d.isDigit = true)
    (hne : digits ≠ []) :
    sign.Precedes (digits ++ rest) := by
  obtain ⟨c, more, rfl⟩ := List.exists_cons_of_ne_nil hne
  have hc := hd c List.mem_cons_self
  refine fun _ => ⟨c, more ++ rest, rfl, ?_, ?_⟩
  · rintro rfl
    cases hc
  · rintro rfl
    cases hc

theorem read_eq_ok_iff {severity : Severity} : read s = .ok severity ↔
    Tells s.toList severity.toInt := by
  constructor
  · intro h
    have hne : s.toList ≠ [] := by
      intro hs
      rw [read, hs] at h
      cases h
    obtain ⟨sign, cs, hs, hcs⟩ := exists_sign hne
    obtain ⟨n, hn, hk⟩ := (read_eq_ok_of_sign hs hcs).1 h
    obtain ⟨hne, hread⟩ := readUnsigned_eq_ok.1 hn
    obtain ⟨hd, hvalue, -⟩ := (readDigits_eq_ok (Nat.zero_le _)).1 hread
    exact ⟨sign, cs, hs, hne, hd, by rw [hvalue, hk]⟩
  · rintro ⟨sign, digits, hs, hne, hd, hk⟩
    have hcs : sign.Precedes (digits ++ []) := precedes_digits hd hne
    rw [List.append_nil] at hcs
    have hl : Nat.ofDigitChars 10 digits 0 ≤ sign.limit :=
      inRange_iff.1 (hk ▸ inRange_toInt severity)
    have hread : readUnsigned sign.limit sign.beyond digits = .ok ⟨_, hl⟩ :=
      readUnsigned_eq_ok.2 ⟨hne, (readDigits_eq_ok (Nat.zero_le _)).2 ⟨hd, rfl, hl⟩⟩
    exact (read_eq_ok_of_sign hs hcs).2 ⟨_, hread, hk.symm⟩

variable {fault : Fault}

theorem firstProblem_of_read (h : read s = .error fault) : FirstProblem s.toList fault := by
  by_cases hempty : s.toList = []
  · rw [read, hempty] at h
    cases h
    rw [hempty]
    exact .empty
  obtain ⟨sign, cs, hs, hcs⟩ := exists_sign hempty
  rw [hs]
  obtain ⟨rfl, rfl⟩ | ⟨-, hob⟩ := readUnsigned_eq_error.1 ((read_eq_error_of_sign hs hcs).1 h)
  · have hsign : sign ≠ .absent := by
      intro habsent
      obtain ⟨c, rest, hnil, -⟩ := hcs habsent
      cases hnil
    rw [List.append_nil]
    exact .loneSign hsign
  · cases hob with
    | @invalid digits c rest hd hl hc =>
      rw [← List.append_assoc]
      refine .invalidDigit rest hd (inRange_iff.2 hl) hc fun habsent hnil => ?_
      obtain ⟨first, more, he, hsign⟩ := hcs habsent
      rw [hnil] at he
      rw [(List.cons.inj he).1]
      exact hsign
    | outgrown rest hd hl =>
      rw [← List.append_assoc]
      exact .outOfRange rest hd fun hr => Nat.not_le.2 hl (inRange_iff.1 hr)

theorem read_eq_error_iff : read s = .error fault ↔ FirstProblem s.toList fault := by
  refine ⟨firstProblem_of_read, fun h => ?_⟩
  generalize hs : s.toList = text at h
  cases h with
  | empty => rw [read, hs]
  | @loneSign sign hsign =>
    have hcs : sign.Precedes [] := fun habsent => absurd habsent hsign
    rw [read_eq_error_of_sign (by rw [hs, List.append_nil]) hcs]
    exact readUnsigned_eq_error.2 (.inl ⟨rfl, rfl⟩)
  | @invalidDigit sign digits c rest hd hr hc hstart =>
    have hcs : sign.Precedes (digits ++ c :: rest) := by
      by_cases hnil : digits = []
      · subst hnil
        exact fun habsent => ⟨c, rest, rfl, hstart habsent rfl⟩
      · exact precedes_digits hd hnil
    rw [read_eq_error_of_sign (by rw [hs, List.append_assoc]) hcs]
    exact readUnsigned_eq_error.2 (.inr ⟨by simp, .invalid rest hd (inRange_iff.1 hr) hc⟩)
  | @outOfRange sign digits rest hd hr =>
    have hl := Nat.not_le.1 (mt inRange_iff.2 hr)
    have hne : digits ≠ [] := by
      rintro rfl
      exact hr (inRange_iff.2 (Nat.zero_le sign.limit))
    rw [read_eq_error_of_sign (by rw [hs, List.append_assoc]) (precedes_digits hd hne)]
    exact readUnsigned_eq_error.2 (.inr ⟨by simp [hne], .outgrown rest hd hl⟩)

end SlogHelpers.Severity
