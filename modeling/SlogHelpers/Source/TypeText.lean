import SlogHelpers.Source.Identifier
import SlogHelpers.Text.Rest

/-!
Go types as they are written in a parameter list: named, qualified and instantiated types, pointers,
slices, arrays, maps, channels, functions, and interfaces and structs on one line.

Each reader takes one construct off the front of a text and gives what follows it. The rest is
always shorter, which is what the loops over lists of constructs end by; nesting is limited by
`take`.
-/
namespace SlogHelpers.Source.TypeText

/-- Takes one construct off the front of a text, and answers with the rest, which is shorter. -/
abbrev Taker := (s : List Char) → Option { rest : List Char // rest.length < s.length }

def skipSpaces (s : List Char) : List Char :=
  s.dropWhile fun c => c == ' ' || c == '\t'

theorem length_skipSpaces_le (s : List Char) : (skipSpaces s).length ≤ s.length :=
  (List.dropWhile_sublist _).length_le

/-- What follows the spaces and tabs in front, if there are any. -/
def pastSpaces (s : List Char) : { rest : List Char // rest.length ≤ s.length } :=
  ⟨skipSpaces s, length_skipSpaces_le s⟩

def past? (c : Char) : Taker
  | [] => none
  | d :: rest => if d = c then some ⟨rest, Nat.lt_succ_self _⟩ else none

def strip? (word s : List Char) : Option { rest : List Char // rest.length ≤ s.length } :=
  if word.isPrefixOf s then some ⟨s.drop word.length, by simp⟩ else none

/-- What follows the word at the front of the text, or the text itself. -/
def strip (word s : List Char) : { rest : List Char // rest.length ≤ s.length } :=
  (strip? word s).getD ⟨s, Nat.le_refl _⟩

namespace Taker

def andThen (first second : Taker) : Taker := fun s => do
  let ⟨rest, h⟩ ← first s
  let ⟨rest', h'⟩ ← second rest
  some ⟨rest', Nat.lt_trans h' h⟩

def orElse (first second : Taker) : Taker := fun s => (first s).or (second s)

/-- After `head` there must be `body`; without `head` there is `other`. -/
def headed (head body other : Taker) : Taker := fun s =>
  match head s with
  | some ⟨rest, h⟩ => do
    let ⟨rest', h'⟩ ← body rest
    some ⟨rest', Nat.lt_trans h' h⟩
  | none => other s

/-- The first construct, and where the character follows it, the second after that. -/
def extendedBy (first : Taker) (c : Char) (second : Taker) : Taker := fun s => do
  let ⟨rest, h⟩ ← first s
  match past? c rest with
  | some ⟨after, ha⟩ => do
    let ⟨rest', h'⟩ ← second after
    some ⟨rest', by omega⟩
  | none => some ⟨rest, h⟩

def spaced (t : Taker) : Taker := fun s => do
  let ⟨next, hn⟩ := pastSpaces s
  let ⟨rest, h⟩ ← t next
  some ⟨rest, Text.rest_lt_of_le hn h⟩

/-- The construct, after the word or without it. -/
def marked (word : List Char) (t : Taker) : Taker := fun s => do
  let ⟨next, hn⟩ := strip word s
  let ⟨rest, h⟩ ← t next
  some ⟨rest, Text.rest_lt_of_le hn h⟩

end Taker

/-- Items up to the closing character, with separators between them; one may follow the last. -/
def itemsThen (item : Taker) (separator close : Char) : Taker := fun s =>
  match past? close s with
  | some rest => some rest
  | none => do
    let ⟨rest, h⟩ ← item s
    let ⟨next, hn⟩ := pastSpaces rest
    match past? close next with
    | some ⟨after, ha⟩ => some ⟨after, by omega⟩
    | none => do
      let ⟨after, ha⟩ ← past? separator next
      let ⟨more, hm⟩ := pastSpaces after
      let ⟨rest', h'⟩ ← itemsThen item separator close more
      some ⟨rest', by omega⟩
termination_by s => s.length
decreasing_by omega

def identifier : Taker := fun s =>
  if h : isIdentifierChars (s.takeWhile Text.isNameChar) then
    some ⟨s.dropWhile Text.isNameChar, by
      have hlen :=
        congrArg List.length (List.takeWhile_append_dropWhile (p := Text.isNameChar) (l := s))
      rw [List.length_append] at hlen
      cases ht : s.takeWhile Text.isNameChar with
      | nil => simp [ht, isIdentifierChars] at h
      | cons c cs => simp [ht] at hlen; omega⟩
  else none

/-- `Name` or `pkg.Name`. -/
def typeName : Taker := identifier.extendedBy '.' identifier

/-- The length of an array: decimal digits, or the name of a constant. -/
def arrayLength : Taker := fun s =>
  match s with
  | [] => none
  | c :: rest =>
    if c.isDigit then
      some ⟨rest.dropWhile Char.isDigit, Nat.lt_succ_of_le (List.dropWhile_sublist _).length_le⟩
    else typeName (c :: rest)

section Nested

variable (type : Taker)

/-- The types `A, B]` after the bracket that opens an instantiation; a space may follow a comma. -/
def typeArguments : Taker := fun s => do
  let ⟨rest, h⟩ ← type s
  match past? ']' rest with
  | some ⟨after, ha⟩ => some ⟨after, Nat.lt_trans ha h⟩
  | none => do
    let ⟨after, ha⟩ ← past? ',' rest
    let ⟨next, hn⟩ := strip [' '] after
    let ⟨rest', h'⟩ ← typeArguments next
    some ⟨rest', by omega⟩
termination_by s => s.length
decreasing_by omega

def variadic : Taker := type.marked ['.', '.', '.']

/-- `T`, `...T`, `name T` or `name ...T`. A word with a space after it is always taken as a name. -/
def parameter : Taker :=
  .headed (identifier.andThen (past? ' ')) (variadic type).spaced (variadic type)

/-- What follows the parenthesis that opens a parameter list. -/
def parameters : Taker := .spaced (itemsThen (parameter type) ',' ')')

/-- What follows the parenthesis that opens the parameters of a function: they, and after one space
the results in parentheses or a single result type. A space that no type follows is left alone. -/
def signature : Taker := fun s => do
  let ⟨rest, h⟩ ← parameters type s
  match past? ' ' rest with
  | none => some ⟨rest, h⟩
  | some ⟨after, ha⟩ =>
    match past? '(' after with
    | some ⟨inner, hi⟩ => do
      let ⟨rest', h'⟩ ← parameters type inner
      some ⟨rest', by omega⟩
    | none =>
      match type after with
      | some ⟨rest', h'⟩ => some ⟨rest', by omega⟩
      | none => some ⟨rest, h⟩

def body (element : Taker) : Taker := .spaced (itemsThen element ';' '\x7d')

def unionTerm : Taker := type.marked ['~']

def union : Taker := fun s => do
  let ⟨rest, h⟩ ← unionTerm type s
  let ⟨next, hn⟩ := pastSpaces rest
  match past? '|' next with
  | some ⟨after, ha⟩ => do
    let ⟨more, hm⟩ := pastSpaces after
    let ⟨rest', h'⟩ ← union more
    some ⟨rest', by omega⟩
  | none => some ⟨rest, h⟩
termination_by s => s.length
decreasing_by omega

/-- A method with its signature, or a union of types. -/
def interfaceElement : Taker :=
  .headed (identifier.andThen (past? '(')) (signature type) (union type)

def fieldNames : Taker := fun s => do
  let ⟨rest, h⟩ ← identifier s
  match past? ',' rest with
  | some ⟨after, ha⟩ => do
    let ⟨more, hm⟩ := pastSpaces after
    let ⟨rest', h'⟩ ← fieldNames more
    some ⟨rest', by omega⟩
  | none => some ⟨rest, h⟩
termination_by s => s.length
decreasing_by omega

def namedField : Taker := (fieldNames.andThen (past? ' ')).andThen type.spaced

/-- What follows the quote that ends an interpreted tag; `escaped` tells that a backslash went
before. A line break ends the reading without success. -/
def afterQuote (escaped : Bool) : List Char → Option (List Char)
  | [] => none
  | c :: rest =>
    if escaped then afterQuote false rest
    else if c = '\\' then afterQuote true rest
    else if c = '"' then some rest
    else if c = '\n' then none
    else afterQuote false rest

theorem length_afterQuote_lt {escaped : Bool} {s rest : List Char}
    (h : afterQuote escaped s = some rest) : rest.length < s.length := by
  induction s generalizing escaped with
  | nil => simp [afterQuote] at h
  | cons c s ih =>
    have grow {e : Bool} (he : afterQuote e s = some rest) : rest.length < (c :: s).length :=
      Nat.lt_succ_of_lt (ih he)
    rw [afterQuote] at h
    split at h
    · exact grow h
    · split at h
      · exact grow h
      · split at h
        · cases h; simp
        · split at h
          · cases h
          · exact grow h

def interpretedTag : Taker := fun s =>
  match h : afterQuote false s with
  | some rest => some ⟨rest, length_afterQuote_lt h⟩
  | none => none

/-- What follows the body of a raw tag, which ends at the next back quote. -/
def rawTag : Taker := fun s => do
  let ⟨rest, h⟩ ← past? '\x60' (s.dropWhile (· ≠ '\x60'))
  some ⟨rest, Nat.lt_of_lt_of_le h (List.dropWhile_sublist _).length_le⟩

/-- What follows an optional tag: a string between back quotes or double quotes. Where there is
none, the spaces in front of it stay. -/
def tag (s : List Char) : Option { rest : List Char // rest.length ≤ s.length } :=
  let ⟨next, hn⟩ := pastSpaces s
  match past? '\x60' next with
  | some ⟨inner, hi⟩ => do
    let ⟨rest, h⟩ ← rawTag inner
    some ⟨rest, by omega⟩
  | none =>
    match past? '"' next with
    | some ⟨inner, hi⟩ => do
      let ⟨rest, h⟩ ← interpretedTag inner
      some ⟨rest, by omega⟩
    | none => some ⟨s, Nat.le_refl _⟩

/-- Names with a type, or an embedded type; then a tag, if there is one. -/
def field : Taker := fun s => do
  let ⟨rest, h⟩ ← (namedField type).orElse type s
  let ⟨rest', h'⟩ ← tag rest
  some ⟨rest', Nat.lt_of_le_of_lt h' h⟩

end Nested

/-- How a type that is not a name begins. -/
inductive Opening where
  | pointer
  | slice
  | map
  | array
  | channel
  | function
  | interface
  | struct
  deriving DecidableEq, Repr

/-- The first characters of each kind of type, the longer ones before those that begin them. -/
def openings : List (List Char × Opening) := [
  (['*'], .pointer),
  (['[', ']'], .slice),
  (['m', 'a', 'p', '['], .map),
  (['['], .array),
  (['<', '-', 'c', 'h', 'a', 'n', ' '], .channel),
  (['c', 'h', 'a', 'n', '<', '-', ' '], .channel),
  (['c', 'h', 'a', 'n', ' '], .channel),
  (['f', 'u', 'n', 'c', '('], .function),
  (['i', 'n', 't', 'e', 'r', 'f', 'a', 'c', 'e', '\x7b'], .interface),
  (['s', 't', 'r', 'u', 'c', 't', '\x7b'], .struct)]

def opening? (s : List Char) : Option (Opening × { rest : List Char // rest.length ≤ s.length }) :=
  openings.findSome? fun (word, opening) => (strip? word s).map fun rest => (opening, rest)

/-- What follows an opening up to the end of the type, given how to take the types inside. -/
def Opening.take (type : Taker) : Opening → Taker
  | .pointer => type
  | .slice => type
  | .map => (type.andThen (past? ']')).andThen type
  | .array => (arrayLength.andThen (past? ']')).andThen type
  | .channel => type
  | .function => signature type
  | .interface => body (interfaceElement type)
  | .struct => body (field type)

def named (type : Taker) : Taker := typeName.extendedBy '[' (typeArguments type)

/-- One type, nested at most `levels` deep. -/
def take : (levels : Nat) → Taker
  | 0, _ => none
  | levels + 1, s =>
    match opening? s with
    | some (opening, ⟨inner, hi⟩) => do
      let ⟨rest, h⟩ ← opening.take (take levels) inner
      some ⟨rest, Text.rest_lt_of_le hi h⟩
    | none => named (take levels) s

def maxLevels : Nat := 33

end TypeText

/-- Whether the whole text is one Go type. -/
def isTypeText (s : String) : Bool :=
  (TypeText.take TypeText.maxLevels s.toList).any (·.1.isEmpty)

end SlogHelpers.Source
