import Mathlib.Data.List.TakeDrop
import SlogHelpers.Options
import SlogHelpers.Proofs.Severity.Reading

/-!
What the pairs of options are read as: the parts around the only colon of a text. The second part of
a level is its severity, or has a first problem that is told.
-/
namespace SlogHelpers

theorem splitPair_eq_some {value a b : String} :
    splitPair value = some (a, b) ↔ value = a ++ ":" ++ b ∧ ':' ∉ a.toList ∧ ':' ∉ b.toList := by
  rw [splitPair, List.span_eq_takeWhile_dropWhile]
  constructor
  · intro h
    have hvalue :
        value.toList.takeWhile (· ≠ ':') ++ value.toList.dropWhile (· ≠ ':') = value.toList :=
      List.takeWhile_append_dropWhile
    have hkey : ':' ∉ value.toList.takeWhile (· ≠ ':') := by
      intro hc
      simpa using List.all_eq_true.1 List.all_takeWhile ':' hc
    cases hd : value.toList.dropWhile (· ≠ ':') with
    | nil =>
      rw [hd] at h
      cases h
    | cons c rest =>
      obtain rfl : c = ':' := by
        have hc := List.head?_dropWhile_not (· ≠ ':') value.toList
        rw [hd] at hc
        simpa using hc
      rw [hd] at h hvalue
      dsimp only at h
      split at h
      · cases h
      · next hrest =>
        obtain ⟨rfl, rfl⟩ := Prod.mk.inj (Option.some.inj h)
        refine ⟨String.toList_injective ?_, by simpa using hkey, by simpa using hrest⟩
        simpa using hvalue.symm
  · rintro ⟨rfl, ha, hb⟩
    have hpos : ∀ c ∈ a.toList, decide (c ≠ ':') = true := by
      intro c hc
      exact decide_eq_true fun he => ha (he ▸ hc)
    have ht : (a ++ ":" ++ b).toList = a.toList ++ ':' :: b.toList := by simp
    rw [ht, List.takeWhile_append_of_pos hpos, List.dropWhile_append_of_pos hpos,
      List.takeWhile_cons_of_neg (by simp), List.dropWhile_cons_of_neg (by simp)]
    simp [hb]

theorem splitPair_eq_none {value : String} : splitPair value = none ↔
    value.toList.count ':' ≠ 1 := by
  have hsplit : (∃ pair, splitPair value = some pair) ↔ value.toList.count ':' = 1 := by
    constructor
    · rintro ⟨⟨a, b⟩, h⟩
      obtain ⟨rfl, ha, hb⟩ := splitPair_eq_some.1 h
      simp [List.count_eq_zero.2 ha, List.count_eq_zero.2 hb]
    · intro h
      have hcolon : ':' ∈ value.toList := List.count_pos_iff.1 (by omega)
      obtain ⟨as, bs, hs, has⟩ := List.eq_append_cons_of_mem hcolon
      have hbs : ':' ∉ bs := by
        rw [hs, List.count_append, List.count_cons_self, List.count_eq_zero.2 has] at h
        exact List.count_eq_zero.1 (by omega)
      exact ⟨(String.ofList as, String.ofList bs), splitPair_eq_some.2
        ⟨String.toList_injective (by simpa using hs), by simpa using has, by simpa using hbs⟩⟩
  rw [ne_eq, ← hsplit, ← Option.isSome_iff_exists, Option.not_isSome_iff_eq_none]

namespace Options

variable {value name key type : String} {severity : Severity}

theorem readLevel_eq_ok :
    readLevel value = .ok (name, severity) ↔
      ∃ text, splitPair value = some (name, text) ∧ Severity.read text = .ok severity := by
  rw [readLevel]
  cases splitPair value with
  | none => simp
  | some pair =>
    obtain ⟨found, text⟩ := pair
    cases hr : Severity.read text with
    | error cause => simp [hr]
    | ok read => simp [hr, and_comm]

theorem readAttribute_eq_ok : readAttribute value = .ok (key, type) ↔
    splitPair value = some (key, type) := by
  rw [readAttribute]
  cases splitPair value with
  | none => simp
  | some pair => simp

theorem readLevel_eq_error {fault : ConfigFault} :
    readLevel value = .error fault ↔
      (splitPair value = none ∧ fault = .malformedPair .level value) ∨
        ∃ name text cause, splitPair value = some (name, text) ∧ Severity.read text = .error cause ∧
          fault = .invalidSeverity text cause := by
  rw [readLevel]
  cases splitPair value with
  | none => simp [eq_comm]
  | some pair =>
    obtain ⟨name, text⟩ := pair
    cases hr : Severity.read text with
    | error cause => simp [hr, eq_comm]
    | ok read => simp [hr]

/-- A level option is read if it is a name, a colon and a sign and digits whose number is in range,
and is then read as these. Without the one colon it is malformed, and otherwise the first problem of
its second part is told. -/
theorem readLevel_exact (value : String) :
    (∀ name k, (∃ severity, readLevel value = .ok (name, severity) ∧ severity.toInt = k) ↔
        ∃ text, value = name ++ ":" ++ text ∧ ':' ∉ name.toList ∧ ':' ∉ text.toList ∧
          Severity.Tells text.toList k ∧ Severity.InRange k) ∧
      ∀ fault, readLevel value = .error fault ↔
        (value.toList.count ':' ≠ 1 ∧ fault = .malformedPair .level value) ∨
          ∃ name text cause, value = name ++ ":" ++ text ∧ ':' ∉ name.toList ∧ ':' ∉ text.toList ∧
            Severity.FirstProblem text.toList cause ∧ fault = .invalidSeverity text cause := by
  constructor
  · intro name k
    constructor
    · rintro ⟨severity, h, rfl⟩
      obtain ⟨text, hsplit, hread⟩ := readLevel_eq_ok.1 h
      obtain ⟨hvalue, hname, htext⟩ := splitPair_eq_some.1 hsplit
      exact ⟨text, hvalue, hname, htext, Severity.read_eq_ok_iff.1 hread,
        Severity.inRange_toInt severity⟩
    · rintro ⟨text, hvalue, hname, htext, htells, hmin, hmax⟩
      have hlt : k < 0x8000000000000000 := by omega
      have hread : Severity.read text = .ok ⟨k, hmin, hlt⟩ := Severity.read_eq_ok_iff.2 htells
      exact ⟨⟨k, hmin, hlt⟩,
        readLevel_eq_ok.2 ⟨text, splitPair_eq_some.2 ⟨hvalue, hname, htext⟩, hread⟩, rfl⟩
  · intro fault
    simp only [readLevel_eq_error, splitPair_eq_none, splitPair_eq_some,
      Severity.read_eq_error_iff, and_assoc]

/-- Digits that lead out of range hide what is behind them, and hide nothing that is in front of
them. -/
example : readLevel "alert:-0009223372036854775808" =
    .ok ("alert", ⟨-0x8000000000000000, by decide, by decide⟩) ∧
    readLevel "alert:9223372036854775808x" =
      .error (.invalidSeverity "9223372036854775808x" .tooLarge) ∧
    readLevel "alert:922337203685477580x8" =
      .error (.invalidSeverity "922337203685477580x8" .invalidDigit) := by
  decide +kernel

end Options
end SlogHelpers
