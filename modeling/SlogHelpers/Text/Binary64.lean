/-!
Finite binary floating point numbers of 64 bits, without their sign: rounding a ratio to the
nearest, and the shortest decimal digits that read back as the same number.
-/
namespace SlogHelpers.Text

/-- The number `significand * 2 ^ exponent`. -/
structure Binary64 where
  significand : Nat
  exponent : Int
  deriving DecidableEq, Repr

namespace Binary64

def twoTo (k : Nat) : Nat := Nat.pow 2 k

def tenTo (k : Nat) : Nat := Nat.pow 10 k

def zero : Binary64 := ⟨0, 0⟩

def num (x : Binary64) : Nat := x.significand * twoTo x.exponent.toNat

def den (x : Binary64) : Nat := twoTo (-x.exponent).toNat

/-- The whole number nearest to `n / d`; of two equally near ones, the even one. -/
def divNearest (n d : Nat) : Nat :=
  let q := n / d
  let r := n % d
  if 2 * r < d then q else if d < 2 * r then q + 1 else if q % 2 = 0 then q else q + 1

/-- The number nearest to `n / d`, of two equally near ones the one with an even significand. There
is none where that would be too large. -/
def nearest (n d : Nat) : Option Binary64 :=
  if n = 0 then some zero
  else
    let guess : Int := (n.log2 : Int) - d.log2
    let floorLog : Int :=
      if d * twoTo guess.toNat ≤ n * twoTo (-guess).toNat then guess else guess - 1
    let exponent := max (floorLog - 52) (-1074)
    let m := divNearest (n * twoTo (-exponent).toNat) (d * twoTo exponent.toNat)
    let x : Binary64 := if m = twoTo 53 then ⟨twoTo 52, exponent + 1⟩ else ⟨m, exponent⟩
    if 971 < x.exponent then none else if x.significand = 0 then some zero else some x

def powerOfTen (k : Nat) : Binary64 := (nearest (tenTo k) 1).getD zero

def mul (x y : Binary64) : Option Binary64 := nearest (x.num * y.num) (x.den * y.den)

def div (x y : Binary64) : Option Binary64 := nearest (x.num * y.den) (x.den * y.num)

/-- Multiplies by a power of ten. One within the range of numbers is taken in a single step; a
smaller one is approached in steps of `10 ^ 308` until it is, or until nothing is left. -/
def scale (x : Binary64) (power : Int) : Option Binary64 :=
  if power.natAbs ≤ 308 then
    if 0 ≤ power then x.mul (powerOfTen power.natAbs) else x.div (powerOfTen power.natAbs)
  else if x.significand = 0 then some zero
  else if 0 < power then none
  else
    (x.div (powerOfTen 308)).bind fun smaller => scale smaller (power + 308)
termination_by power.natAbs
decreasing_by omega

/-- The least `e` with the number below `10 ^ e`. -/
def magnitude (x : Binary64) : Int :=
  if x.den ≤ x.num then (Nat.toDigits 10 (x.num / x.den)).length
  else
    let e : Int := 1 - (Nat.toDigits 10 (x.den / x.num)).length
    if x.den ≤ x.num * tenTo (-e).toNat then e + 1 else e

/-- Decimal digits of a number: `digits * 10 ^ power`. -/
structure Decimal where
  digits : Nat
  power : Int

/-- The decimal numbers with the digits of `10 ^ power` next to the number that read back as it. -/
def readBack (x : Binary64) (power : Int) : List Nat :=
  let n := x.num * tenTo (-power).toNat
  let d := x.den * tenTo power.toNat
  [n / d, n / d + 1].filter fun c =>
    nearest (c * tenTo power.toNat) (tenTo (-power).toNat) == some x

/-- The nearer of the decimal numbers that read back, the even one of two equally near. -/
def nearer (x : Binary64) (power : Int) : List Nat → Option Nat
  | [] => none
  | [c] => some c
  | _ => some (divNearest (x.num * tenTo (-power).toNat) (x.den * tenTo power.toNat))

/-- The fewest digits, from `count` to 17 of them, that read back as the number. -/
def shortestFrom (x : Binary64) (count : Nat) : Decimal :=
  let power := x.magnitude - count
  match nearer x power (readBack x power) with
  | some digits => ⟨digits, power⟩
  | none => if count < 17 then shortestFrom x (count + 1) else ⟨0, 0⟩
termination_by 17 - count

def Decimal.strip (x : Decimal) : Decimal :=
  let digits := Nat.toDigits 10 x.digits
  let kept := (digits.reverse.dropWhile (· == '0')).reverse
  ⟨(String.ofList kept).toNat?.getD 0, x.power + (digits.length - kept.length)⟩

def shortest (x : Binary64) : Decimal := (shortestFrom x 1).strip

/-- The number in decimal. Numbers from `10 ^ -5` to below `10 ^ 16` are written out and always have
a point with a digit on either side; all others are written with an exponent and its sign. -/
def text (x : Binary64) : String :=
  if x.significand = 0 then "0.0"
  else
    let d := x.shortest
    let digits := Nat.toDigits 10 d.digits
    let point : Int := digits.length + d.power
    if 0 ≤ d.power ∧ point ≤ 16 then
      String.ofList (digits ++ List.replicate d.power.toNat '0' ++ ['.', '0'])
    else if 0 < point ∧ point ≤ 16 then
      String.ofList (digits.take point.toNat ++ '.' :: digits.drop point.toNat)
    else if -5 < point ∧ point ≤ 0 then
      String.ofList ('0' :: '.' :: List.replicate (-point).toNat '0' ++ digits)
    else
      let sign := if point - 1 < 0 then "e-" else "e+"
      let lead := String.ofList (digits.take 1)
      let rest := if digits.length ≤ 1 then "" else "." ++ String.ofList (digits.drop 1)
      lead ++ rest ++ sign ++ String.ofList (Nat.toDigits 10 (point - 1).natAbs)

end Binary64
end SlogHelpers.Text
