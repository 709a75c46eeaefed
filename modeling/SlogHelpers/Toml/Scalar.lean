import SlogHelpers.Text.Hex
import SlogHelpers.Text.Rest

/-!
The smallest parts of TOML texts: what separates them, keys, strings, numbers and dates. Each reader
gives the text after what it read, which is shorter.
-/
namespace SlogHelpers.Toml

/-- Something read from the front of a text, which takes at least one character. -/
abbrev Taken (α : Type) (s : List Char) : Type :=
  Option (α × { rest : List Char // rest.length < s.length })

def isBlank (c : Char) : Bool := c == ' ' || c == '\t'

/-- Whether the character may stand in comments and strings: no control but the tab. -/
def isText (c : Char) : Bool := c == '\t' || (0x20 ≤ c.toNat && c.toNat != 0x7F)

def skipBlanks (s : List Char) : List Char := s.dropWhile isBlank

theorem length_skipBlanks_le (s : List Char) : (skipBlanks s).length ≤ s.length :=
  (List.dropWhile_sublist _).length_le

/-- Without the blanks, line breaks and comments in front. A carriage return stands only before a
line feed. -/
def skipGaps (inComment : Bool) : List Char → Option (List Char)
  | [] => some []
  | '\n' :: rest => skipGaps false rest
  | '\x0d' :: '\n' :: rest => skipGaps false rest
  | c :: rest =>
    if inComment then if isText c then skipGaps true rest else none
    else if isBlank c then skipGaps false rest
    else if c = '#' then skipGaps true rest
    else some (c :: rest)

theorem length_skipGaps_le {b : Bool} {s rest : List Char} (h : skipGaps b s = some rest) :
    rest.length ≤ s.length := by
  fun_induction skipGaps b s generalizing rest with
  | case1 => simp_all
  | case2 _ _ ih => exact Nat.le_succ_of_le (ih h)
  | case3 _ _ ih => exact Nat.le_succ_of_le (Nat.le_succ_of_le (ih h))
  | case4 _ _ _ _ _ ih => exact Nat.le_succ_of_le (ih h)
  | case5 => simp at h
  | case6 _ _ _ _ _ _ _ ih => exact Nat.le_succ_of_le (ih h)
  | case7 _ _ _ _ _ _ ih => exact Nat.le_succ_of_le (ih h)
  | case8 => cases h; exact Nat.le_refl _

def lineEnd? (s : List Char) : Option (List Char) :=
  let s := skipBlanks s
  let s := match s with
    | '#' :: rest => rest.dropWhile isText
    | s => s
  match s with
  | [] => some []
  | '\n' :: rest => some rest
  | '\x0d' :: '\n' :: rest => some rest
  | _ => none

def letterEscape? : Char → Option Char
  | 'b' => some '\x08'
  | 't' => some '\t'
  | 'n' => some '\n'
  | 'f' => some '\x0c'
  | 'r' => some '\x0d'
  | 'e' => some '\x1b'
  | '"' => some '"'
  | '\\' => some '\\'
  | _ => none

def escapeDigits? : Char → Option Nat
  | 'x' => some 2
  | 'u' => some 4
  | 'U' => some 8
  | _ => none

def escape? (s : List Char) : Taken Char s :=
  match s with
  | [] => none
  | c :: rest =>
    match escapeDigits? c with
    | some n =>
      if n ≤ rest.length then
        (Text.hexChar? (rest.take n)).map fun e =>
          (e, ⟨rest.drop n, Text.drop_tail_lt n rest⟩)
      else none
    | none => (letterEscape? c).map fun e => (e, ⟨rest, Text.tail_lt rest⟩)

def Taken.lift {α β : Type} {s t : List Char} (h : t.length ≤ s.length) (f : α → β) :
    Taken α t → Taken β s :=
  Option.map fun found => (f found.1, ⟨found.2.1, Text.rest_lt_of_le h found.2.2⟩)

def basicString (s : List Char) : Taken (List Char) s :=
  match s with
  | [] => none
  | '"' :: rest => some ([], ⟨rest, Text.tail_lt rest⟩)
  | '\\' :: rest =>
    match escape? rest with
    | some (c, ⟨after, h⟩) =>
      (basicString after).lift (Text.le_of_lt_tail h) (c :: ·)
    | none => none
  | c :: rest => if isText c then (basicString rest).lift (Text.tail_le rest) (c :: ·) else none
termination_by s.length
decreasing_by all_goals (simp only [List.length_cons]; omega)

def literalString (s : List Char) : Taken (List Char) s :=
  match s with
  | [] => none
  | '\'' :: rest => some ([], ⟨rest, Text.tail_lt rest⟩)
  | c :: rest => if isText c then (literalString rest).lift (Text.tail_le rest) (c :: ·) else none

/-- Up to five quotes at the front, if they are three at least: those before the last three belong
to the string that they end. -/
def closing? (quote : Char) (s : List Char) : Taken (List Char) s :=
  let n := (s.takeWhile (· == quote)).length
  if h : 3 ≤ n then
    let n := min n 5
    some (List.replicate (n - 3) quote, ⟨s.drop n, by
      have := (List.takeWhile_sublist (l := s) (· == quote)).length_le
      simp only [List.length_drop]; omega⟩)
  else none

def skipLines : List Char → List Char
  | '\x0d' :: '\n' :: rest => skipLines rest
  | c :: rest => if isBlank c || c = '\n' then skipLines rest else c :: rest
  | [] => []

theorem length_skipLines_le (s : List Char) : (skipLines s).length ≤ s.length := by
  fun_induction skipLines s with
  | case1 _ ih => exact Nat.le_succ_of_le (Nat.le_succ_of_le ih)
  | case2 _ _ _ _ ih => exact Nat.le_succ_of_le ih
  | case3 => exact Nat.le_refl _
  | case4 => exact Nat.le_refl _

/-- What follows a backslash at the end of a line: the text behind the white space, if a line break
is part of it. -/
def continuation? (s : List Char) : Option (List Char) :=
  match skipBlanks s with
  | '\n' :: rest => some (skipLines rest)
  | '\x0d' :: '\n' :: rest => some (skipLines rest)
  | _ => none

theorem length_continuation?_le {s rest : List Char} (h : continuation? s = some rest) :
    rest.length ≤ s.length := by
  have hs := length_skipBlanks_le s
  rw [continuation?] at h
  split at h
  · next t heq =>
    cases h
    rw [heq, List.length_cons] at hs
    exact Nat.le_trans (length_skipLines_le t) (by omega)
  · next t heq =>
    cases h
    rw [heq, List.length_cons, List.length_cons] at hs
    exact Nat.le_trans (length_skipLines_le t) (by omega)
  · simp at h

def basicLines (s : List Char) : Taken (List Char) s :=
  match closing? '"' s with
  | some found => some found
  | none =>
    match s with
    | [] => none
    | '\\' :: rest =>
      match hc : continuation? rest with
      | some after =>
        (basicLines after).lift (Text.le_of_le_tail (length_continuation?_le hc)) id
      | none =>
        match escape? rest with
        | some (c, ⟨after, h⟩) =>
          (basicLines after).lift (Text.le_of_lt_tail h) (c :: ·)
        | none => none
    | '\x0d' :: '\n' :: rest =>
      (basicLines rest).lift (Text.tail_tail_le rest) ('\x0d' :: '\n' :: ·)
    | c :: rest =>
      if isText c || c = '\n' then (basicLines rest).lift (Text.tail_le rest) (c :: ·) else none
termination_by s.length
decreasing_by
  · have := length_continuation?_le hc
    simp only [List.length_cons]; omega
  all_goals (simp only [List.length_cons]; omega)

def literalLines (s : List Char) : Taken (List Char) s :=
  match closing? '\'' s with
  | some found => some found
  | none =>
    match s with
    | [] => none
    | '\x0d' :: '\n' :: rest =>
      (literalLines rest).lift (Text.tail_tail_le rest) ('\x0d' :: '\n' :: ·)
    | c :: rest =>
      if isText c || c = '\n' then (literalLines rest).lift (Text.tail_le rest) (c :: ·) else none
termination_by s.length
decreasing_by all_goals (simp only [List.length_cons]; omega)

/-- Without the line break with which the first line of a string over several lines may begin. -/
def skipFirstBreak : List Char → List Char
  | '\n' :: rest => rest
  | '\x0d' :: '\n' :: rest => rest
  | s => s

theorem length_skipFirstBreak_le (s : List Char) : (skipFirstBreak s).length ≤ s.length := by
  fun_cases skipFirstBreak s with
  | case1 rest => exact Text.tail_le rest
  | case2 rest => exact Text.tail_tail_le rest
  | case3 => exact Nat.le_refl _

def string? (s : List Char) : Taken String s :=
  match s with
  | '"' :: '"' :: '"' :: rest =>
    (basicLines (skipFirstBreak rest)).lift
      (Nat.le_trans (length_skipFirstBreak_le rest) (by simp only [List.length_cons]; omega))
        String.ofList
  | '\'' :: '\'' :: '\'' :: rest =>
    (literalLines (skipFirstBreak rest)).lift
      (Nat.le_trans (length_skipFirstBreak_le rest) (by simp only [List.length_cons]; omega))
        String.ofList
  | '"' :: rest => (basicString rest).lift (Text.tail_le rest) String.ofList
  | '\'' :: rest => (literalString rest).lift (Text.tail_le rest) String.ofList
  | _ => none

/-- Digits with an underscore between two of them here and there, without the underscores. -/
def joined? (isDigit : Char → Bool) : List Char → Option (List Char)
  | [] => none
  | [c] => if isDigit c then some [c] else none
  | c :: '_' :: rest => if isDigit c then (joined? isDigit rest).map (c :: ·) else none
  | c :: rest => if isDigit c then (joined? isDigit rest).map (c :: ·) else none

def unsigned : List Char → Bool × List Char
  | '-' :: rest => (true, rest)
  | '+' :: rest => (false, rest)
  | s => (false, s)

/-- A whole number in decimal without its sign. Only zero itself begins with a zero. -/
def decimal? (s : List Char) : Option Nat := do
  let digits ← joined? Char.isDigit s
  match digits with
  | '0' :: _ :: _ => none
  | digits => Text.digitsIn? 10 digits

def isDigitOf (base : Nat) (c : Char) : Bool :=
  match Text.hexDigit? c with
  | some digit => digit < base
  | none => false

def based? (base : Nat) (s : List Char) : Option Nat := do
  let digits ← joined? (isDigitOf base) s
  Text.digitsIn? base digits

/-- A whole number; with a sign only in decimal. -/
def integer? (s : List Char) : Option Int :=
  match s with
  | '0' :: 'x' :: digits => (based? 16 digits).map Int.ofNat
  | '0' :: 'o' :: digits => (based? 8 digits).map Int.ofNat
  | '0' :: 'b' :: digits => (based? 2 digits).map Int.ofNat
  | s =>
    let (negative, rest) := unsigned s
    (decimal? rest).map fun n => if negative then -(n : Int) else n

def isDigits (s : List Char) : Bool := (joined? Char.isDigit s).isSome

def isExponent (s : List Char) : Bool := isDigits (unsigned s).2

/-- Whether the text is a number with a fraction, an exponent or both, or one of the words for what
no digits can write. -/
def isFloat (s : List Char) : Bool :=
  let rest := (unsigned s).2
  let (whole, tail) := rest.span fun c => c.isDigit || c == '_'
  let isLetter (c : Char) : Bool := c == 'e' || c == 'E'
  rest == ['i', 'n', 'f'] || rest == ['n', 'a', 'n'] ||
    ((decimal? whole).isSome &&
      match tail with
      | '.' :: rest =>
        match rest.span (!isLetter ·) with
        | (fraction, []) => isDigits fraction
        | (fraction, _ :: exponent) => isDigits fraction && isExponent exponent
      | c :: exponent => isLetter c && isExponent exponent
      | [] => false)

/-- Whether each underscore stands between two hexadecimal digits. -/
def joinsDigits (afterDigit : Bool) : List Char → Bool
  | [] => true
  | c :: rest =>
    if c = '_' then
      afterDigit && (rest.head?.any fun d => isDigitOf 16 d) && joinsDigits false rest
    else joinsDigits (isDigitOf 16 c) rest

/-- Whether the text passes for a whole number before anyone asks for its value: the mark of a base
without digits, or digits with underscores between them, whatever follows the first underscore. What
has a dot or the letter of an exponent has to be a number that is not whole. -/
def passesForInteger (s : List Char) : Bool :=
  s == ['0', 'x'] || s == ['0', 'o'] || s == ['0', 'b'] ||
    match (unsigned s).2.span Char.isDigit with
    | (digits, '_' :: rest) =>
      digits.head? != some '0' && !rest.any (fun c => c == '.' || c == 'e' || c == 'E') &&
        joinsDigits false s
    | _ => false

def twoDigits? : List Char → Option (Nat × List Char)
  | a :: b :: rest =>
    if a.isDigit && b.isDigit then (Text.digitsIn? 10 [a, b]).map (·, rest) else none
  | _ => none

def daysIn (year month : Nat) : Nat :=
  if month = 2 then
    if year % 4 = 0 ∧ (year % 100 ≠ 0 ∨ year % 400 = 0) then 29 else 28
  else if month = 4 ∨ month = 6 ∨ month = 9 ∨ month = 11 then 30
  else 31

def date? (s : List Char) : Option (List Char × List Char) := do
  let (century, rest) ← twoDigits? s
  let (yearOfCentury, rest) ← twoDigits? rest
  let rest ← if rest.head? = some '-' then some rest.tail else none
  let (month, rest) ← twoDigits? rest
  let rest ← if rest.head? = some '-' then some rest.tail else none
  let (day, rest) ← twoDigits? rest
  if 1 ≤ month ∧ month ≤ 12 ∧ 1 ≤ day ∧ day ≤ daysIn (century * 100 + yearOfCentury) month then
    some (s.take 10, rest)
  else none

/-- The digits of a fraction of a second as they are shown: nine at most, and no zeros at the end
but for a single one. -/
def shownFraction (digits : List Char) : List Char :=
  match ((digits.take 9).reverse.dropWhile (· == '0')).reverse with
  | [] => ['0']
  | shown => shown

/-- A time of day at the front. Seconds and their fraction may be left out. -/
def time? (s : List Char) : Option (List Char × List Char) := do
  let (hour, rest) ← twoDigits? s
  let rest ← if rest.head? = some ':' then some rest.tail else none
  let (minute, rest) ← twoDigits? rest
  if 23 < hour ∨ 59 < minute then none
  else
    match rest with
    | ':' :: rest => do
      let (second, rest) ← twoDigits? rest
      if 60 < second then none
      else
        match rest with
        | '.' :: rest =>
          let digits := rest.takeWhile Char.isDigit
          if digits.isEmpty then none
          else some (s.take 8 ++ '.' :: shownFraction digits, rest.dropWhile Char.isDigit)
        | rest => some (s.take 8, rest)
    | rest => some (s.take 5, rest)

/-- The distance from universal time that makes up the rest of a text, as it is shown: no distance
at all has a plus sign. -/
def offset? (s : List Char) : Option (List Char) :=
  match s with
  | [] => some []
  | ['Z'] => some ['Z']
  | ['z'] => some ['Z']
  | sign :: rest => do
    let (hour, after) ← twoDigits? rest
    let after ← if after.head? = some ':' then some after.tail else none
    let (minute, after) ← twoDigits? after
    if (sign = '+' ∨ sign = '-') ∧ hour ≤ 23 ∧ minute ≤ 59 ∧ after.isEmpty then
      some ((if hour = 0 ∧ minute = 0 then '+' else sign) :: rest)
    else none

def moment? (s : List Char) : Option String :=
  match date? s with
  | some (date, []) => some (String.ofList date)
  | some (date, delimiter :: rest) => do
    if delimiter = 'T' ∨ delimiter = 't' ∨ delimiter = ' ' then do
      let (time, rest) ← time? rest
      let offset ← offset? rest
      some (String.ofList (date ++ 'T' :: time ++ offset))
    else none
  | none =>
    match time? s with
    | some (time, []) => some (String.ofList time)
    | _ => none

def isKeyChar (c : Char) : Bool := c.isAlphanum || c == '_' || c == '-'

def endsWord (c : Char) : Bool :=
  isBlank c || c == '\n' || c == '\x0d' || c == '#' || c == ',' || c == '=' ||
    c == '[' || c == ']' ||
    c == '\x7b' || c == '\x7d'

/-- A word at the front; a date takes in a time of day that stands behind one space. -/
def word (s : List Char) : List Char × List Char :=
  let (w, rest) := s.span (!endsWord ·)
  match date? w, rest with
  | some (_, []), ' ' :: c :: rest' =>
    if c.isDigit then
      let (w', rest') := (c :: rest').span (!endsWord ·)
      (w ++ ' ' :: w', rest')
    else (w, rest)
  | _, _ => (w, rest)

end SlogHelpers.Toml
