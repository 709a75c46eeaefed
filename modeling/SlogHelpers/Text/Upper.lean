import SlogHelpers.Text.UpperTable

/-!
Upper-casing over all of Unicode. `upperFull` is the full mapping, under which a character may turn
into two or three; `upperSimple` is the one-to-one mapping, under which text keeps its length.
-/
namespace SlogHelpers.Text

def UpperRun.holds (run : UpperRun) (n : Nat) : Bool :=
  run.first ≤ n && n ≤ run.last && (n - run.first) % run.stride == 0

/-- The one-character upper-case form of a code point, itself where the runs name no other. -/
def shiftUp (n : Nat) : Nat :=
  match upperRuns.find? (·.holds n) with
  | some run => (n + run.shift).toNat
  | none => n

def upperFull (c : Char) : List Char :=
  match upperExpansions.lookup c.toNat with
  | some codes => codes.map Char.ofNat
  | none => [Char.ofNat (shiftUp c.toNat)]

/-- The title-case form of a Greek vowel with a small iota below. The full upper-case form of such
a letter has two characters or more, and this one stands in for it where only one may. -/
def titleOfIotaVowel (n : Nat) : Option Nat :=
  if (0x1F80 ≤ n && n ≤ 0x1F87) || (0x1F90 ≤ n && n ≤ 0x1F97) || (0x1FA0 ≤ n && n ≤ 0x1FA7) then
    some (n + 8)
  else if n == 0x1FB3 || n == 0x1FC3 || n == 0x1FF3 then some (n + 9)
  else none

/-- The one-to-one upper-case form: a letter whose full form is longer keeps its own, the Greek
vowels with iota below take their title-case form. -/
def upperSimple (c : Char) : Char :=
  match upperFull c with
  | [u] => u
  | _ =>
    match titleOfIotaVowel c.toNat with
    | some n => Char.ofNat n
    | none => c

/-- A text under the one-to-one mapping, which is how Go's `strings.ToUpper` folds level names. -/
def upperText (s : String) : String :=
  s.map upperSimple

end SlogHelpers.Text
