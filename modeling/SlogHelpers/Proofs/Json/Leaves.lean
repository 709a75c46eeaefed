import Mathlib.Data.List.TakeDrop
import SlogHelpers.Proofs.Json.Grammar
import SlogHelpers.Proofs.Severity

/-!
The leaves of a text: every spelling of a string is read as that string, and every number as what it
says.
-/
namespace SlogHelpers.Json

variable {w s t : List Char} {c : Char}

theorem isSpace_eq_true : isSpace c = true ↔ c = ' ' ∨ c = '\t' ∨ c = '\n' ∨ c = '\x0d' := by
  simp [isSpace, or_assoc]

theorem skipSpace_append (hw : Spaces w) : skipSpace (w ++ s) = skipSpace s :=
  List.dropWhile_append_of_pos fun c hc => isSpace_eq_true.2 (hw c hc)

theorem skipSpace_cons (hc : isSpace c = false) : skipSpace (c :: s) = c :: s :=
  List.dropWhile_cons_of_neg (by simp [hc])

/-! ## Strings -/

def string? (s : List Char) : Option (List Char × List Char) :=
  (stringBody s).map fun found => (found.1, found.2.1)

theorem shortEscape?_of_mem {letter : Char} (h : (letter, c) ∈ letterEscapes) :
    shortEscape? letter = some c := by
  have hall :
      letterEscapes.all (fun entry => shortEscape? entry.1 == some entry.2) = true := by decide
  exact eq_of_beq (List.all_eq_true.1 hall _ h)

theorem string?_escape {after : List Char}
    (h : (escape? t).map (fun found => (found.1, found.2.1)) = some (c, after)) :
    string? ('\\' :: t) = (string? after).map fun found => (c :: found.1, found.2) := by
  obtain ⟨⟨d, rest, hlt⟩, he, hd⟩ := Option.map_eq_some_iff.1 h
  obtain ⟨rfl, rfl⟩ := Prod.mk.inj hd
  rw [string?, stringBody, he]
  simp only [Option.bind_eq_bind, Option.bind_some, string?]
  cases stringBody rest with
  | none => rfl
  | some found => rfl

theorem four_digits {digits : List Char} {code : Nat} (h : IsCode digits code) :
    ∃ a b c d, digits = [a, b, c, d] ∧ hex4? a b c d = some code := by
  obtain ⟨hlen, hcode⟩ := h
  match digits, hlen with
  | [a, b, c, d], _ => exact ⟨a, b, c, d, rfl, hcode⟩

theorem not_surrogate (c : Char) : ¬ (0xD800 ≤ c.toNat ∧ c.toNat < 0xE000) := by
  have hv := c.valid
  simp only [UInt32.isValidChar, Nat.isValidChar] at hv
  change ¬ (0xD800 ≤ c.val.toNat ∧ c.val.toNat < 0xE000)
  omega

theorem string?_spelledChar (h : SpelledChar c t) :
    string? (t ++ s) = (string? s).map fun found => (c :: found.1, found.2) := by
  cases h with
  | plain hc hq hs =>
    rw [List.singleton_append, string?, stringBody]
    · rw [if_neg (by omega)]
      simp only [Option.bind_eq_bind, string?]
      cases stringBody s <;> rfl
    · exact hq
    · exact hs
  | @letter letter c h =>
    have hu : letter ≠ 'u' := by
      rintro rfl
      revert h
      simp [letterEscapes]
    refine string?_escape ?_
    change (escape? (letter :: s)).map _ = _
    rw [escape?]
    · rw [shortEscape?_of_mem h]
      rfl
    · intros
      simp_all
  | code h =>
    obtain ⟨a, b, d, e, rfl, hcode⟩ := four_digits h
    have hn := not_surrogate c
    refine string?_escape ?_
    change (escape? ('u' :: a :: b :: d :: e :: s)).map _ = _
    simp only [escape?, hcode, Option.bind_eq_bind, Option.bind_some]
    rw [if_neg (by omega), if_neg (by omega)]
    simp
  | pair hh hl hhr hlr hc =>
    obtain ⟨a, b, d, e, rfl, hhigh⟩ := four_digits hh
    obtain ⟨a', b', d', e', rfl, hlow⟩ := four_digits hl
    refine string?_escape ?_
    change (escape? ('u' :: a :: b :: d :: e :: '\\' :: 'u' :: a' :: b' :: d' :: e' :: s)).map _ = _
    simp only [escape?, hhigh, hlow, Option.bind_eq_bind, Option.bind_some]
    rw [if_pos hhr, if_pos hlr]
    have hchar : ofSurrogates _ _ = Char.ofNat c.toNat := congrArg Char.ofNat hc.symm
    simp [hchar]

theorem string?_spelledChars {cs : List Char} (h : SpelledChars cs t) :
    string? (t ++ '"' :: s) = some (cs, s) := by
  induction h with
  | nil =>
    rw [List.nil_append, string?, stringBody]
    rfl
  | cons hc _ ih =>
    rw [List.append_assoc, string?_spelledChar hc, ih]
    rfl

/-! ## Numbers -/

/-- A text that may follow a number. -/
def Ends (s : List Char) : Prop := ∀ c ∈ s.head?, isSpace c = true ∨ c = ',' ∨ c = ']' ∨ c = '\x7d'

theorem Ends.cases (h : Ends s) :
    s = [] ∨ ∃ c r, s = c :: r ∧ c.isDigit = false ∧ c ≠ '.' ∧ c ≠ 'e' ∧ c ≠ 'E' := by
  cases s with
  | nil => exact .inl rfl
  | cons c r =>
    refine .inr ⟨c, r, rfl, ?_⟩
    have hc := h c rfl
    rw [isSpace_eq_true] at hc
    rcases hc with (rfl | rfl | rfl | rfl) | rfl | rfl | rfl <;> decide

theorem digits?_append {ds : List Char} (hd : IsDigits ds) (hs : ∀ c ∈ s.head?, c.isDigit = false) :
    digits? (ds ++ s) = some (ds, s) := by
  obtain ⟨hne, hall⟩ := hd
  have htake : (ds ++ s).takeWhile Char.isDigit = ds := by
    rw [List.takeWhile_append_of_pos hall]
    cases s with
    | nil => simp
    | cons c r => simp [hs c rfl]
  have hdrop : (ds ++ s).dropWhile Char.isDigit = s := by
    rw [List.dropWhile_append_of_pos hall]
    cases s with
    | nil => rfl
    | cons c r => simp [hs c rfl]
  rw [digits?, htake, hdrop]
  cases ds with
  | nil => exact absurd rfl hne
  | cons d ds => rfl

theorem ofDigits_eq (ds : List Char) : ofDigits ds = Nat.ofDigitChars 10 ds 0 := by
  simp only [ofDigits, Nat.ofDigitChars, Nat.mul_comm]

def Digits.next (acc : Digits) (c : Char) : Digits :=
  let next := acc.value * 10 + (c.toNat - '0'.toNat)
  if acc.full then { acc with power := acc.power + 1 }
  else if next ≤ maxWord then { acc with value := next }
  else { acc with power := acc.power + 1, full := true }

theorem full_foldl {acc : Digits} (h : acc.full = true) (ds : List Char) :
    (ds.foldl Digits.next acc).full = true := by
  induction ds generalizing acc with
  | nil => exact h
  | cons d ds ih => exact ih (by simp [Digits.next, h])

theorem foldl_next (ds : List Char) (n : Nat) :
    if Nat.ofDigitChars 10 ds n ≤ maxWord then
      ds.foldl Digits.next ⟨n, 0, false⟩ = ⟨Nat.ofDigitChars 10 ds n, 0, false⟩
    else n ≤ maxWord → (ds.foldl Digits.next ⟨n, 0, false⟩).full = true := by
  induction ds generalizing n with
  | nil =>
    rw [Nat.ofDigitChars_nil]
    split
    · rfl
    · exact fun hn => absurd hn ‹_›
  | cons d ds ih =>
    rw [Nat.ofDigitChars_cons, List.foldl_cons, Nat.mul_comm]
    by_cases hn : n * 10 + (d.toNat - '0'.toNat) ≤ maxWord
    · have hnext : Digits.next ⟨n, 0, false⟩ d = ⟨n * 10 + (d.toNat - '0'.toNat), 0, false⟩ := by
        simp only [Digits.next, Bool.false_eq_true, if_false, if_pos hn]
      have h := ih (n * 10 + (d.toNat - '0'.toNat))
      rw [hnext]
      split
      · next hle => rwa [if_pos hle] at h
      · next hle =>
        rw [if_neg hle] at h
        exact fun _ => h hn
    · have hlt := Severity.le_ofDigitChars (n * 10 + (d.toNat - '0'.toNat)) ds
      rw [if_neg (by omega)]
      intro _
      refine full_foldl ?_ ds
      simp only [Digits.next, Bool.false_eq_true, if_false, if_neg hn]

theorem ofWhole_eq {ds : List Char} (h : Nat.ofDigitChars 10 ds 0 ≤ maxWord) :
    Digits.ofWhole ds = ⟨Nat.ofDigitChars 10 ds 0, 0, false⟩ := by
  have hf := foldl_next ds 0
  rwa [if_pos h] at hf

theorem full_ofWhole {ds : List Char} (h : ¬ Nat.ofDigitChars 10 ds 0 ≤ maxWord) :
    (Digits.ofWhole ds).full = true := by
  have hf := foldl_next ds 0
  rw [if_neg h] at hf
  exact hf (Nat.zero_le _)

theorem ofWhole?_eq (negative : Bool) (ds : List Char) :
    Number.ofWhole? negative ds = Numeral.number? ⟨negative, ds, none, none⟩ := by
  by_cases h : Nat.ofDigitChars 10 ds 0 ≤ maxWord
  · cases negative with
    | false => simp [Number.ofWhole?, Numeral.number?, Numeral.integer?, ofWhole_eq h, h]
    | true =>
      by_cases hr : 0 < Nat.ofDigitChars 10 ds 0 ∧ Nat.ofDigitChars 10 ds 0 ≤ 0x8000000000000000
      · have hn : ¬ (Nat.ofDigitChars 10 ds 0 = 0 ∨
            0x8000000000000000 < Nat.ofDigitChars 10 ds 0) := by omega
        simp [Number.ofWhole?, Numeral.number?, Numeral.integer?, ofWhole_eq h, hr, hn]
      · have hn : Nat.ofDigitChars 10 ds 0 = 0 ∨
            0x8000000000000000 < Nat.ofDigitChars 10 ds 0 := by omega
        simp [Number.ofWhole?, Numeral.number?, Numeral.integer?, ofWhole_eq h, hr, hn]
  · have hr : ¬ (0 < Nat.ofDigitChars 10 ds 0 ∧ Nat.ofDigitChars 10 ds 0 ≤ 0x8000000000000000) := by
      rw [maxWord] at h
      omega
    cases negative <;>
      simp [Number.ofWhole?, Numeral.number?, Numeral.integer?, full_ofWhole h, h, hr]

theorem exponent?_append {e : Exponent} (h : e.WellFormed) (hs : Ends s) :
    exponent? (e.sign ++ e.digits ++ s) = some (e.value, s) := by
  obtain ⟨letter, sign, digits⟩ := e
  have hd : digits? (digits ++ s) = some (digits, s) := by
    refine digits?_append h.digits fun c hc => ?_
    obtain rfl | ⟨d, r, rfl, hdigit, -⟩ := hs.cases
    · cases hc
    · cases hc
      exact hdigit
  rcases h.sign with hsign | hsign | hsign
  · obtain rfl : sign = [] := hsign
    obtain ⟨d, ds, rfl⟩ := List.exists_cons_of_ne_nil h.digits.1
    have hdigit := h.digits.2 d List.mem_cons_self
    have hne : d ≠ '-' ∧ d ≠ '+' := by
      constructor <;>
      · rintro rfl
        cases hdigit
    rw [List.nil_append, exponent?]
    · simp only [hd, Option.map_some, ofDigits_eq, Exponent.value, List.ne_cons_self, if_false]
    · exact fun r hr => hne.1 (List.cons.inj hr).1
    · exact fun r hr => hne.2 (List.cons.inj hr).1
  · obtain rfl : sign = ['+'] := hsign
    simp [exponent?, hd, ofDigits_eq, Exponent.value]
  · obtain rfl : sign = ['-'] := hsign
    simp [exponent?, hd, ofDigits_eq, Exponent.value]

/-- The number of the digits on both sides of a point and an exponent. -/
def Number.ofParts? (negative : Bool) (whole fraction : List Char) (exponent : Option Int) :
    Option Number :=
  if fraction.isEmpty && exponent.isNone then ofWhole? negative whole
  else (magnitude? (.ofWhole whole) fraction (exponent.getD 0)).map (.float negative)

theorem ofParts?_eq {n : Numeral} (hf : ∀ ds ∈ n.fraction, IsDigits ds) :
    Number.ofParts? n.negative n.whole (n.fraction.getD []) (n.exponent.map Exponent.value) =
      n.number? := by
  obtain ⟨negative, whole, fraction, exponent⟩ := n
  cases exponent with
  | some e => simp [Number.ofParts?, Numeral.number?, Numeral.integer?]
  | none =>
    cases fraction with
    | none => exact ofWhole?_eq negative whole
    | some ds =>
      have hne : ds ≠ [] := (hf ds rfl).1
      simp [Number.ofParts?, Numeral.number?, Numeral.integer?, hne]

/-- The number whose digits on both sides of the point have been read. -/
def exponentTail (negative : Bool) (whole fraction s : List Char) : Option (Number × List Char) :=
  match s with
  | 'e' :: rest =>
    (exponent? rest).bind fun found =>
      (Number.ofParts? negative whole fraction (some found.1)).map (·, found.2)
  | 'E' :: rest =>
    (exponent? rest).bind fun found =>
      (Number.ofParts? negative whole fraction (some found.1)).map (·, found.2)
  | rest => (Number.ofParts? negative whole fraction none).map (·, rest)

theorem ofParts?_map {negative : Bool} {whole fraction : List Char} {exponent : Option Int} :
    (if fraction.isEmpty && exponent.isNone then (Number.ofWhole? negative whole).bind fun number =>
      some (number, s)
      else ((magnitude? (.ofWhole whole) fraction (exponent.getD 0)).map (.float negative)).bind
        fun number => some (number, s)) =
      (Number.ofParts? negative whole fraction exponent).map (·, s) := by
  rw [Number.ofParts?]
  split <;> exact Option.map_eq_bind.symm

theorem numberTail_append {negative : Bool} {whole : List Char} {fraction : Option (List Char)}
    (h : ∀ ds ∈ fraction, IsDigits ds) (hs : ∀ c ∈ s.head?, c.isDigit = false ∧ c ≠ '.') :
    numberTail negative whole (fraction.elim [] ('.' :: ·) ++ s) =
      exponentTail negative whole (fraction.getD []) s := by
  have hexp : ∀ (exp : Option (Int × List Char)),
      ((exp.map fun found => (some found.1, found.2)).bind fun found : Option Int × List Char =>
        if (fraction.getD []).isEmpty && found.1.isNone then
          (Number.ofWhole? negative whole).bind fun number => some (number, found.2)
        else ((magnitude? (.ofWhole whole) (fraction.getD []) (found.1.getD 0)).map
          (.float negative)).bind
          fun number => some (number, found.2)) =
      exp.bind fun found =>
        (Number.ofParts? negative whole (fraction.getD []) (some found.1)).map (·, found.2) := by
    intro exp
    cases exp with
    | none => rfl
    | some found => exact ofParts?_map
  cases fraction with
  | some ds =>
    have hd := digits?_append (h ds rfl) fun c hc => (hs c hc).1
    simp only [Option.elim_some, List.cons_append, numberTail, hd, Option.bind_eq_bind,
      Option.bind_some]
    split
    · exact hexp _
    · exact hexp _
    · next he hE =>
      rw [exponentTail]
      · exact ofParts?_map
      · exact he
      · exact hE
  | none =>
    have hdot : ∀ r, s = '.' :: r → False := fun r hr => (hs '.' (by rw [hr]; rfl)).2 rfl
    rw [Option.elim_none, List.nil_append, numberTail]
    · simp only [Option.bind_eq_bind, Option.bind_some]
      split
      · exact hexp _
      · exact hexp _
      · next he hE =>
        rw [exponentTail]
        · exact ofParts?_map
        · exact he
        · exact hE
    · exact hdot

theorem exponentTail_append {n : Numeral} (h : n.WellFormed) (hs : Ends s) :
    exponentTail n.negative n.whole (n.fraction.getD []) (n.exponent.elim [] Exponent.text ++ s) =
      n.number?.map (·, s) := by
  rw [← ofParts?_eq h.fraction]
  cases hn : n.exponent with
  | some e =>
    have he := h.exponent e hn
    have hread := exponent?_append he hs
    obtain ⟨letter, sign, digits⟩ := e
    rcases he.letter with hl | hl <;>
    · obtain rfl := hl
      simp only [Option.elim_some, Exponent.text, List.cons_append, exponentTail, hread]
      rfl
  | none =>
    obtain rfl | ⟨c, r, rfl, -, -, he, hE⟩ := hs.cases
    · rfl
    · rw [Option.elim_none, List.nil_append, exponentTail]
      · rfl
      · exact fun r hr => he (List.cons.inj hr).1
      · exact fun r hr => hE (List.cons.inj hr).1

theorem Numeral.head?_exponent {exponent : Option Exponent} (h : ∀ e ∈ exponent, e.WellFormed)
    (hs : Ends s) :
    ∀ c ∈ (exponent.elim [] Exponent.text ++ s).head?, c.isDigit = false ∧ c ≠ '.' := by
  intro c hc
  cases exponent with
  | none =>
    obtain rfl | ⟨d, r, rfl, hd, hdot, -⟩ := hs.cases
    · cases hc
    · cases hc
      exact ⟨hd, hdot⟩
  | some e =>
    cases hc
    rcases (h e rfl).letter with hl | hl <;>
    · rw [hl]
      decide

def Numeral.unsigned (n : Numeral) : List Char :=
  n.whole ++ n.fraction.elim [] ('.' :: ·) ++ n.exponent.elim [] Exponent.text

theorem number?_append {n : Numeral} (h : n.WellFormed) (hs : Ends s) :
    number? n.negative (n.unsigned ++ s) = n.number?.map (·, s) := by
  obtain ⟨negative, whole, fraction, exponent⟩ := n
  have hhead := Numeral.head?_exponent h.exponent hs
  have hwhole :
      digits? (whole ++ (fraction.elim [] ('.' :: ·) ++ (exponent.elim [] Exponent.text ++ s))) =
      some (whole, fraction.elim [] ('.' :: ·) ++ (exponent.elim [] Exponent.text ++ s)) := by
    refine digits?_append h.whole fun c hc => ?_
    cases fraction with
    | none => exact (hhead c hc).1
    | some ds =>
      cases hc
      decide
  have hleading : ¬ (whole.length ≠ 1 ∧ whole.head? = some '0') := by
    rintro ⟨hlen, hzero⟩
    obtain rfl : whole = ['0'] := h.leading hzero
    exact hlen rfl
  simp only [Numeral.unsigned, List.append_assoc, number?, hwhole, Option.bind_eq_bind,
    Option.bind_some]
  rw [if_neg hleading, numberTail_append h.fraction hhead]
  exact exponentTail_append h hs

end SlogHelpers.Json
