/-!
Severities of log levels: whole numbers that fit a signed 64-bit word, how they are read from an
option and how they are written.
-/
namespace SlogHelpers

structure Severity where
  toInt : Int
  min_le : -0x8000000000000000 ≤ toInt
  lt_max : toInt < 0x8000000000000000

namespace Severity

theorem ext {a b : Severity} (h : a.toInt = b.toInt) : a = b := by
  cases a; cases b; cases h; rfl

instance : DecidableEq Severity := fun a b =>
  if h : a.toInt = b.toInt then .isTrue (ext h) else .isFalse (fun e => h (e ▸ rfl))

instance : LE Severity := ⟨fun a b => a.toInt ≤ b.toInt⟩
instance : LT Severity := ⟨fun a b => a.toInt < b.toInt⟩

theorem le_iff {a b : Severity} : a ≤ b ↔ a.toInt ≤ b.toInt := Iff.rfl
theorem lt_iff {a b : Severity} : a < b ↔ a.toInt < b.toInt := Iff.rfl

instance : DecidableLE Severity := fun a b => inferInstanceAs (Decidable (a.toInt ≤ b.toInt))
instance : DecidableLT Severity := fun a b => inferInstanceAs (Decidable (a.toInt < b.toInt))

instance : Std.IsLinearOrder Severity where
  le_refl _ := le_iff.2 (Int.le_refl _)
  le_trans _ _ _ h₁ h₂ := le_iff.2 (Int.le_trans h₁ h₂)
  le_total _ _ := Int.le_total _ _
  le_antisymm _ _ h₁ h₂ := ext (Int.le_antisymm h₁ h₂)

instance : Std.LawfulOrderLT Severity where
  lt_iff a b := by simp only [le_iff, lt_iff]; omega

def ofInt? (n : Int) : Option Severity :=
  if h : -0x8000000000000000 ≤ n ∧ n < 0x8000000000000000 then some ⟨n, h.1, h.2⟩ else none

instance : OfNat Severity n where
  ofNat := (ofInt? n).getD ⟨0, by decide, by decide⟩

instance : Inhabited Severity := ⟨0⟩

def text (s : Severity) : String :=
  let digits := String.ofList (Nat.toDigits 10 s.toInt.natAbs)
  if s.toInt < 0 then "-" ++ digits else digits

inductive Fault where
  | empty
  /-- Something else stands where a digit has to. -/
  | invalidDigit
  | tooLarge
  | tooSmall
  deriving DecidableEq, Repr

def Fault.message : Fault → String
  | .empty => "cannot parse integer from empty string"
  | .invalidDigit => "invalid digit found in string"
  | .tooLarge => "number too large to fit in target type"
  | .tooSmall => "number too small to fit in target type"

def digit? (c : Char) : Option Nat :=
  if '0' ≤ c ∧ c ≤ '9' then some (c.toNat - '0'.toNat) else none

/-- The value of the digits after `value`, which may not grow beyond `limit`. The first character
that is no digit, or that leaves the limit behind, decides the fault. -/
def readDigits (limit : Nat) (beyond : Fault) (value : Nat) : List Char → Except Fault Nat
  | [] => .ok value
  | c :: rest =>
    match digit? c with
    | none => .error .invalidDigit
    | some d =>
      if value * 10 + d ≤ limit then readDigits limit beyond (value * 10 + d) rest
      else .error beyond

theorem readDigits_le {limit : Nat} {beyond : Fault} {value n : Nat} {cs : List Char}
    (hv : value ≤ limit) (h : readDigits limit beyond value cs = .ok n) : n ≤ limit := by
  induction cs generalizing value with
  | nil => cases h; exact hv
  | cons c rest ih =>
    rw [readDigits] at h
    split at h
    · cases h
    · split at h
      · exact ih ‹_› h
      · cases h

def readUnsigned (limit : Nat) (beyond : Fault) : List Char → Except Fault { n : Nat // n ≤ limit }
  | [] => .error .invalidDigit
  | c :: rest =>
    match h : readDigits limit beyond 0 (c :: rest) with
    | .ok n => .ok ⟨n, readDigits_le (Nat.zero_le _) h⟩
    | .error fault => .error fault

/-- Reads an optional sign and decimal digits, any number of zeros in front. -/
def read (s : String) : Except Fault Severity :=
  match s.toList with
  | [] => .error .empty
  | '-' :: digits => do
    let n ← readUnsigned 0x8000000000000000 .tooSmall digits
    pure ⟨-(n.1 : Int), by have := n.2; omega, by omega⟩
  | '+' :: digits => do
    let n ← readUnsigned 0x7FFFFFFFFFFFFFFF .tooLarge digits
    pure ⟨n.1, by omega, by have := n.2; omega⟩
  | digits => do
    let n ← readUnsigned 0x7FFFFFFFFFFFFFFF .tooLarge digits
    pure ⟨n.1, by omega, by have := n.2; omega⟩

end Severity
end SlogHelpers
