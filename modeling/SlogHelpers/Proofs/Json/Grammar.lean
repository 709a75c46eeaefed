import SlogHelpers.Json.Reader

/-!
The grammar of JSON: which texts spell a value. White space may stand around every value, a string
may spell each of its characters by any escape that stands for it, and the members of an object come
in the order of the text, names that repeat included. A number within 64 bits is exact.
-/
namespace SlogHelpers.Json

def Spaces (w : List Char) : Prop := ∀ c ∈ w, c = ' ' ∨ c = '\t' ∨ c = '\n' ∨ c = '\x0d'

/-! ## Strings -/

/-- The letters of escapes and what they stand for. -/
def letterEscapes : List (Char × Char) := [
  ('"', '"'), ('\\', '\\'), ('/', '/'), ('b', '\x08'), ('f', '\x0c'), ('n', '\n'),
  ('r', '\x0d'), ('t', '\t')]

def IsCode (digits : List Char) (code : Nat) : Prop :=
  digits.length = 4 ∧ Text.digitsIn? 16 digits = some code

inductive SpelledChar : Char → List Char → Prop
  | plain {c} (hc : 0x20 ≤ c.toNat) (hq : c ≠ '"') (hs : c ≠ '\\') : SpelledChar c [c]
  | letter {letter c} (h : (letter, c) ∈ letterEscapes) : SpelledChar c ['\\', letter]
  | code {c digits} (h : IsCode digits c.toNat) : SpelledChar c ('\\' :: 'u' :: digits)
  /-- Beyond four digits, by a pair of surrogates. -/
  | pair {c high low highDigits lowDigits} (hh : IsCode highDigits high) (hl : IsCode lowDigits low)
    (hhr : 0xD800 ≤ high ∧ high < 0xDC00) (hlr : 0xDC00 ≤ low ∧ low < 0xE000)
    (hc : c.toNat = 0x10000 + (high - 0xD800) * 0x400 + (low - 0xDC00)) :
    SpelledChar c ('\\' :: 'u' :: highDigits ++ '\\' :: 'u' :: lowDigits)

/-- The characters between the quotes. -/
inductive SpelledChars : List Char → List Char → Prop
  | nil : SpelledChars [] []
  | cons {c t cs ts} (h : SpelledChar c t) (hs : SpelledChars cs ts) :
    SpelledChars (c :: cs) (t ++ ts)

inductive SpelledString (s : String) : List Char → Prop
  | quoted {t} (h : SpelledChars s.toList t) : SpelledString s ('"' :: t ++ ['"'])

/-! ## Numbers -/

structure Exponent where
  letter : Char
  sign : List Char
  digits : List Char

/-- A number as it is written. -/
structure Numeral where
  negative : Bool
  whole : List Char
  fraction : Option (List Char)
  exponent : Option Exponent

def IsDigits (ds : List Char) : Prop := ds ≠ [] ∧ ∀ d ∈ ds, d.isDigit = true

namespace Exponent

structure WellFormed (e : Exponent) : Prop where
  letter : e.letter = 'e' ∨ e.letter = 'E'
  sign : e.sign = [] ∨ e.sign = ['+'] ∨ e.sign = ['-']
  digits : IsDigits e.digits

def text (e : Exponent) : List Char := e.letter :: e.sign ++ e.digits

def value (e : Exponent) : Int :=
  if e.sign = ['-'] then -(Nat.ofDigitChars 10 e.digits 0 : Int) else Nat.ofDigitChars 10 e.digits 0

end Exponent

namespace Numeral

structure WellFormed (n : Numeral) : Prop where
  whole : IsDigits n.whole
  /-- A zero in front stands alone. -/
  leading : n.whole.head? = some '0' → n.whole = ['0']
  fraction : ∀ ds ∈ n.fraction, IsDigits ds
  exponent : ∀ e ∈ n.exponent, e.WellFormed

def text (n : Numeral) : List Char :=
  (if n.negative then ['-'] else []) ++ n.whole ++ n.fraction.elim [] ('.' :: ·) ++
    n.exponent.elim [] Exponent.text

/-- The integer of a numeral without fraction and exponent, if 64 bits hold it, signed or not. Zero
with a minus sign is none. -/
def integer? (n : Numeral) : Option Int :=
  let value := Nat.ofDigitChars 10 n.whole 0
  if n.fraction.isSome ∨ n.exponent.isSome then none
  else if n.negative then if 0 < value ∧ value ≤ 0x8000000000000000 then some (-value) else none
  else if value ≤ maxWord then some value else none

/-- The number that is meant: an integer where there is one, else one with a fraction. There is none
where it would be too large. -/
def number? (n : Numeral) : Option Number :=
  match n.integer? with
  | some value => some (.integer value)
  | none =>
    (magnitude? (.ofWhole n.whole) (n.fraction.getD []) (n.exponent.elim 0 Exponent.value)).map
      (.float n.negative)

end Numeral

/-! ## Values -/

inductive Phrase where
  | value (json : Json)
  | element (json : Json)
  | elements (items : List Json)
  | members (members : List (String × Json))

inductive Spelled : Phrase → List Char → Prop
  | null : Spelled (.value .null) ['n', 'u', 'l', 'l']
  | true : Spelled (.value (.bool true)) ['t', 'r', 'u', 'e']
  | false : Spelled (.value (.bool false)) ['f', 'a', 'l', 's', 'e']
  | number {numeral number} (h : Numeral.WellFormed numeral) (hn : numeral.number? = some number) :
    Spelled (.value (.number number)) numeral.text
  | string {s t} (h : SpelledString s t) : Spelled (.value (.string s)) t
  | emptyArray {w} (hw : Spaces w) : Spelled (.value (.array [] true)) ('[' :: w ++ [']'])
  | array {items t} (h : Spelled (.elements items) t) :
    Spelled (.value (.array items true)) ('[' :: t ++ [']'])
  | emptyObject {w} (hw : Spaces w) : Spelled (.value (.object [] true)) ('\x7b' :: w ++ ['\x7d'])
  | object {members t} (h : Spelled (.members members) t) :
    Spelled (.value (.object members true)) ('\x7b' :: t ++ ['\x7d'])
  | element {json u t w} (hu : Spaces u) (h : Spelled (.value json) t) (hw : Spaces w) :
    Spelled (.element json) (u ++ t ++ w)
  | lastElement {json t} (h : Spelled (.element json) t) : Spelled (.elements [json]) t
  | moreElements {json items t ts} (h : Spelled (.element json) t)
    (hs : Spelled (.elements items) ts) :
    Spelled (.elements (json :: items)) (t ++ ',' :: ts)
  | lastMember {name json u k w t} (hu : Spaces u) (hk : SpelledString name k) (hw : Spaces w)
    (h : Spelled (.element json) t) : Spelled (.members [(name, json)]) (u ++ k ++ w ++ ':' :: t)
  | moreMembers {name json members u k w t ts} (hu : Spaces u) (hk : SpelledString name k)
    (hw : Spaces w)
    (h : Spelled (.element json) t) (hs : Spelled (.members members) ts) :
    Spelled (.members ((name, json) :: members)) (u ++ k ++ w ++ ':' :: t ++ ',' :: ts)

def Spells (text : List Char) (json : Json) : Prop := Spelled (.element json) text

end SlogHelpers.Json
