/-!
Hexadecimal digits, by which characters are told where they cannot be shown.
-/
namespace SlogHelpers.Text

/-- Lower-case hexadecimal digits of `n` without leading zeros, at least `width` of them. -/
def hex (width n : Nat) : String :=
  let digits := Nat.toDigits 16 n
  String.ofList (List.replicate (width - digits.length) '0' ++ digits)

def hexDigit? (c : Char) : Option Nat :=
  if c.isDigit then some (c.toNat - '0'.toNat)
  else if 'a' ≤ c ∧ c ≤ 'f' then some (c.toNat - 'a'.toNat + 10)
  else if 'A' ≤ c ∧ c ≤ 'F' then some (c.toNat - 'A'.toNat + 10)
  else none

/-- The number that digits to a base make up, of which there has to be one at least. -/
def digitsIn? (base : Nat) (digits : List Char) : Option Nat :=
  if digits.isEmpty then none
  else digits.foldlM (fun n c => do
    let digit ← hexDigit? c
    if digit < base then some (n * base + digit) else none) 0

def hexChar? (digits : List Char) : Option Char := do
  let code ← digitsIn? 16 digits
  if (0xD800 ≤ code ∧ code < 0xE000) ∨ 0x10FFFF < code then none else some (Char.ofNat code)

end SlogHelpers.Text
