import SlogHelpers.Json
import SlogHelpers.Text.Hex
import SlogHelpers.Text.Rest

/-!
Reading JSON texts. Each reader gives what it read and the text after it; where the text goes wrong
there is no text after it. What is left always gets shorter, by which the readers end.
-/
namespace SlogHelpers.Json

def isSpace (c : Char) : Bool := c == ' ' || c == '\t' || c == '\n' || c == '\x0d'

def skipSpace (s : List Char) : List Char := s.dropWhile isSpace

theorem length_skipSpace_le (s : List Char) : (skipSpace s).length ≤ s.length :=
  (List.dropWhile_sublist _).length_le

theorem length_lt_of_skipSpace {s rest : List Char} {c : Char} (h : skipSpace s = c :: rest) :
    rest.length < s.length := by
  have := length_skipSpace_le s
  rw [h, List.length_cons] at this
  exact this

def hex4? (a b c d : Char) : Option Nat := Text.digitsIn? 16 [a, b, c, d]

def shortEscape? : Char → Option Char
  | '"' => some '"'
  | '\\' => some '\\'
  | '/' => some '/'
  | 'b' => some '\x08'
  | 'f' => some '\x0c'
  | 'n' => some '\n'
  | 'r' => some '\x0d'
  | 't' => some '\t'
  | _ => none

def ofSurrogates (high low : Nat) : Char :=
  Char.ofNat (0x10000 + (high - 0xD800) * 0x400 + (low - 0xDC00))

/-- The character that an escape stands for, read from behind its backslash. A surrogate must be the
first half of a pair, with the second half right behind it. -/
def escape? (s : List Char) : Option (Char × { rest : List Char // rest.length < s.length }) :=
  match s with
  | 'u' :: a :: b :: c :: d :: rest => do
    let code ← hex4? a b c d
    if 0xD800 ≤ code ∧ code < 0xDC00 then
      match hr : rest with
      | '\\' :: 'u' :: a' :: b' :: c' :: d' :: rest' => do
        let low ← hex4? a' b' c' d'
        if 0xDC00 ≤ low ∧ low < 0xE000 then
          some (ofSurrogates code low, ⟨rest', by simp only [hr, List.length_cons]; omega⟩)
        else none
      | _ => none
    else if 0xDC00 ≤ code ∧ code < 0xE000 then none
    else some (Char.ofNat code, ⟨rest, by simp only [List.length_cons]; omega⟩)
  | c :: rest => (shortEscape? c).map fun e => (e, ⟨rest, by simp⟩)
  | [] => none

def stringBody (s : List Char) :
    Option (List Char × { rest : List Char // rest.length < s.length }) :=
  match s with
  | [] => none
  | '"' :: rest => some ([], ⟨rest, by simp⟩)
  | '\\' :: rest => do
    let (c, ⟨after, h⟩) ← escape? rest
    let (cs, ⟨rest', h'⟩) ← stringBody after
    some (c :: cs, ⟨rest', by simp only [List.length_cons]; omega⟩)
  | c :: rest => do
    if c.toNat < 0x20 then none
    else do
      let (cs, ⟨rest', h'⟩) ← stringBody rest
      some (c :: cs, ⟨rest', by simp only [List.length_cons]; omega⟩)
termination_by s.length
decreasing_by all_goals (simp only [List.length_cons]; omega)

def maxWord : Nat := 0xFFFFFFFFFFFFFFFF

/-- The decimal digits of a number as far as 64 bits hold them, and the power of ten they are to be
multiplied by. -/
structure Digits where
  value : Nat
  power : Int
  full : Bool

/-- The digits in front of the point: one that no longer fits counts as a power of ten, and so do
all after it. -/
def Digits.ofWhole (digits : List Char) : Digits :=
  digits.foldl (fun acc c =>
    let next := acc.value * 10 + (c.toNat - '0'.toNat)
    if acc.full then { acc with power := acc.power + 1 }
    else if next ≤ maxWord then { acc with value := next }
    else { acc with power := acc.power + 1, full := true }) ⟨0, 0, false⟩

/-- With the digits after the point: one that does not fit is dropped, and so are all after it. -/
def Digits.withFraction (whole : Digits) (digits : List Char) : Digits :=
  digits.foldl (fun acc c =>
    let next := acc.value * 10 + (c.toNat - '0'.toNat)
    if acc.full then acc
    else if next ≤ maxWord then { acc with value := next, power := acc.power - 1 }
    else { acc with full := true }) { whole with full := false }

/-- The magnitude of a number with a fraction, an exponent or too many digits. There is none where
it would be too large. -/
def magnitude? (whole : Digits) (fraction : List Char) (exponent : Int) : Option Text.Binary64 := do
  let digits := whole.withFraction fraction
  if 0x80000000 ≤ exponent.natAbs then
    if digits.value ≠ 0 ∧ 0 < exponent then none else some .zero
  else (← Text.Binary64.nearest digits.value 1).scale (digits.power + exponent)

/-- The number of a literal without fraction and exponent. Zero with a minus sign is no integer,
since it would lose its sign. -/
def Number.ofWhole? (negative : Bool) (digits : List Char) : Option Number :=
  let whole := Digits.ofWhole digits
  if whole.full then (magnitude? whole [] 0).map (.float negative)
  else if !negative then some (.integer whole.value)
  else if whole.value = 0 ∨ 0x8000000000000000 < whole.value then
    (magnitude? whole [] 0).map (.float true)
  else some (.integer (-(whole.value : Int)))

def ofDigits (digits : List Char) : Nat :=
  digits.foldl (fun n c => n * 10 + (c.toNat - '0'.toNat)) 0

def digits? (s : List Char) : Option (List Char × List Char) :=
  match s.takeWhile Char.isDigit with
  | [] => none
  | digits => some (digits, s.dropWhile Char.isDigit)

def exponent? (s : List Char) : Option (Int × List Char) :=
  match s with
  | '-' :: rest => (digits? rest).map fun (ds, rest) => (-(ofDigits ds : Int), rest)
  | '+' :: rest => (digits? rest).map fun (ds, rest) => ((ofDigits ds : Int), rest)
  | rest => (digits? rest).map fun (ds, rest) => ((ofDigits ds : Int), rest)

def numberTail (negative : Bool) (whole : List Char) (s : List Char) :
    Option (Number × List Char) := do
  let (fraction, afterFraction) ← match s with
    | '.' :: rest => digits? rest
    | rest => some ([], rest)
  let (exponent, rest) ← match afterFraction with
    | 'e' :: rest => (exponent? rest).map fun (e, rest) => (some e, rest)
    | 'E' :: rest => (exponent? rest).map fun (e, rest) => (some e, rest)
    | rest => some (none, rest)
  let number ←
    if fraction.isEmpty && exponent.isNone then Number.ofWhole? negative whole
    else (magnitude? (.ofWhole whole) fraction (exponent.getD 0)).map (.float negative)
  some (number, rest)

/-- The number at the front of a text, behind its minus sign if it has one. A zero in front stands
alone. -/
def number? (negative : Bool) (s : List Char) : Option (Number × List Char) := do
  let (whole, rest) ← digits? s
  if whole.length ≠ 1 ∧ whole.head? = some '0' then none else numberTail negative whole rest

/-- What was read from a text: a value, and the text after it unless the text went wrong. -/
structure Reading (α : Type) (s : List Char) where
  value : α
  rest : Option { rest : List Char // rest.length < s.length }

def Reading.stop {s : List Char} (value : α) : Reading α s := ⟨value, none⟩

def Reading.longer {s t : List Char} (h : t.length ≤ s.length) (reading : Reading α t) :
    Reading α s :=
  ⟨reading.value, reading.rest.map fun after => ⟨after.1, Text.rest_lt_of_le h after.2⟩⟩

def word (value : Json) (rest : String) (s : List Char) : Reading Json s :=
  if h : rest.toList.isPrefixOf s ∧ rest.toList ≠ [] then
    ⟨value, some ⟨s.drop rest.length, by
      have := (List.isPrefixOf_iff_prefix.1 h.1).length_le
      have : 0 < rest.toList.length := List.length_pos_iff.2 h.2
      simp only [List.length_drop, String.length_toList] at *; omega⟩⟩
  else .stop .broken

def numberValue (negative : Bool) (s : List Char) : Reading Json s :=
  match number? negative s with
  | some (n, rest) =>
    if h : rest.length < s.length then ⟨.number n, some ⟨rest, h⟩⟩ else .stop .broken
  | none => .stop .broken

mutual

def value (s : List Char) : Reading Json s :=
  match hs : skipSpace s with
  | 'n' :: rest => (word .null "ull" rest).longer (Nat.le_of_lt (length_lt_of_skipSpace hs))
  | 't' :: rest => (word (.bool true) "rue" rest).longer (Nat.le_of_lt (length_lt_of_skipSpace hs))
  | 'f' :: rest =>
    (word (.bool false) "alse" rest).longer (Nat.le_of_lt (length_lt_of_skipSpace hs))
  | '"' :: rest =>
    match stringBody rest with
    | some (cs, ⟨after, h⟩) =>
      ⟨.string (String.ofList cs), some ⟨after, Nat.lt_trans h (length_lt_of_skipSpace hs)⟩⟩
    | none => .stop .broken
  | '[' :: rest =>
    let ⟨parts, after⟩ := items true rest
    ⟨.array parts after.isSome,
      Reading.longer (Nat.le_of_lt (length_lt_of_skipSpace hs)) ⟨parts, after⟩ |>.rest⟩
  | '\x7b' :: rest =>
    let ⟨parts, after⟩ := members true rest
    ⟨.object parts after.isSome,
      Reading.longer (Nat.le_of_lt (length_lt_of_skipSpace hs)) ⟨parts, after⟩ |>.rest⟩
  | '-' :: rest => (numberValue true rest).longer (Nat.le_of_lt (length_lt_of_skipSpace hs))
  | c :: rest => (numberValue false (c :: rest)).longer (hs ▸ length_skipSpace_le s)
  | [] => .stop .broken
termination_by (s.length, 1)
decreasing_by all_goals exact Prod.Lex.left _ _ (length_lt_of_skipSpace hs)

/-- The items of an array up to its closing bracket, with a comma before each but the first. -/
def items (first : Bool) (s : List Char) : Reading (List Json) s :=
  match hs : skipSpace s with
  | [] => .stop []
  | c :: rest =>
    if c = ']' then ⟨[], some ⟨rest, length_lt_of_skipSpace hs⟩⟩
    else if first then itemsFrom s
    else if c = ',' then (itemsFrom rest).longer (Nat.le_of_lt (length_lt_of_skipSpace hs))
    else .stop []
termination_by (s.length, 3)
decreasing_by
  · exact Prod.Lex.right _ (by decide)
  · exact Prod.Lex.left _ _ (length_lt_of_skipSpace hs)

def itemsFrom (s : List Char) : Reading (List Json) s :=
  match value s with
  | ⟨item, none⟩ => .stop [item]
  | ⟨item, some ⟨rest, h⟩⟩ =>
    let ⟨parts, after⟩ := items false rest
    Reading.longer (Nat.le_of_lt h) ⟨item :: parts, after⟩
termination_by (s.length, 2)
decreasing_by
  · exact Prod.Lex.right _ (by decide)
  · exact Prod.Lex.left _ _ h

def members (first : Bool) (s : List Char) : Reading (List (String × Json)) s :=
  match hs : skipSpace s with
  | [] => .stop []
  | c :: rest =>
    if c = '\x7d' then ⟨[], some ⟨rest, length_lt_of_skipSpace hs⟩⟩
    else if first then membersFrom s
    else if c = ',' then (membersFrom rest).longer (Nat.le_of_lt (length_lt_of_skipSpace hs))
    else .stop []
termination_by (s.length, 3)
decreasing_by
  · exact Prod.Lex.right _ (by decide)
  · exact Prod.Lex.left _ _ (length_lt_of_skipSpace hs)

/-- A member, and those after it. A key without a value is kept, with a broken one. -/
def membersFrom (s : List Char) : Reading (List (String × Json)) s :=
  match hs : skipSpace s with
  | '"' :: rest =>
    match stringBody rest with
    | none => .stop []
    | some (cs, ⟨afterKey, hk⟩) =>
      let key := String.ofList cs
      match hc : skipSpace afterKey with
      | ':' :: text =>
        match value text with
        | ⟨item, none⟩ => .stop [(key, item)]
        | ⟨item, some ⟨rest', h⟩⟩ =>
          have shorter : rest'.length < s.length :=
            Nat.lt_trans h (Nat.lt_trans (length_lt_of_skipSpace hc)
              (Nat.lt_trans hk (length_lt_of_skipSpace hs)))
          let ⟨parts, after⟩ := members false rest'
          Reading.longer (Nat.le_of_lt shorter) ⟨(key, item) :: parts, after⟩
      | _ => .stop [(key, .broken)]
  | _ => .stop []
termination_by (s.length, 2)
decreasing_by
  · exact Prod.Lex.left _ _ (Nat.lt_trans (length_lt_of_skipSpace hc)
      (Nat.lt_trans hk (length_lt_of_skipSpace hs)))
  · exact Prod.Lex.left _ _ shorter

end

/-- The value that a text consists of, and whether nothing but white space follows it. -/
def read (s : List Char) : Json × Bool :=
  match value s with
  | ⟨found, none⟩ => (found, false)
  | ⟨found, some ⟨rest, _⟩⟩ => (found, (skipSpace rest).isEmpty)

end SlogHelpers.Json
