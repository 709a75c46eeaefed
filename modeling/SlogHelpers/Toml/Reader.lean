import SlogHelpers.Toml
import SlogHelpers.Toml.Scalar

/-!
Reading TOML texts: values, keys with dots, pairs, headers, and the sections that a text is made of.
-/
namespace SlogHelpers.Toml

def blanks (s : List Char) : { rest : List Char // rest.length ≤ s.length } :=
  ⟨skipBlanks s, length_skipBlanks_le s⟩

def gaps? (s : List Char) : Option { rest : List Char // rest.length ≤ s.length } :=
  match h : skipGaps false s with
  | some rest => some ⟨rest, length_skipGaps_le h⟩
  | none => none

def keyPart? (s : List Char) : Taken String s :=
  match s with
  | '"' :: rest => (basicString rest).lift (Text.tail_le rest) String.ofList
  | '\'' :: rest => (literalString rest).lift (Text.tail_le rest) String.ofList
  | s =>
    let n := (s.takeWhile isKeyChar).length
    if h : 0 < n then
      some (String.ofList (s.takeWhile isKeyChar), ⟨s.drop n, Text.drop_takeWhile_lt h⟩)
    else none

/-- A key of any length, with the parts in front of its dots. Blanks may stand around the dots and
behind it. -/
def dotted? (s : List Char) : Taken Key s := do
  let (part, ⟨rest, h⟩) ← keyPart? s
  let ⟨rest, h'⟩ := blanks rest
  match hr : rest with
  | '.' :: more => do
    let ⟨more, h''⟩ := blanks more
    let (key, ⟨after, h'''⟩) ← dotted? more
    some ({ key with path := part :: key.path },
      ⟨after, by simp only [hr, List.length_cons] at h'; omega⟩)
  | rest => some (⟨[], part⟩, ⟨rest, by rw [← hr]; omega⟩)
termination_by s.length
decreasing_by simp only [hr, List.length_cons] at h'; omega

def maxNesting : Nat := 80

def key? (s : List Char) : Taken Key s := do
  let (key, rest) ← dotted? s
  if key.path.length < maxNesting then some (key, rest) else none

def ofWord? (w : List Char) : Option Toml :=
  if w = ['t', 'r', 'u', 'e'] then some (.boolean true)
  else if w = ['f', 'a', 'l', 's', 'e'] then some (.boolean false)
  else
    match integer? w with
    | some n => some (.integer n)
    | none => if isFloat w || passesForInteger w then some .otherNumber else (moment? w).map .moment

def wordValue? (s : List Char) : Taken Toml s := do
  let (w, rest) := word s
  let value ← ofWord? w
  if h : rest.length < s.length then some (value, ⟨rest, h⟩) else none

/-- Without what may stand around an equals sign: blanks, and between braces line breaks and
comments too. -/
def around? (inBraces : Bool) (s : List Char) :
    Option { rest : List Char // rest.length ≤ s.length } :=
  if inBraces then gaps? s else some (blanks s)

mutual

def value? (levels : Nat) (s : List Char) : Taken Toml s :=
  match s with
  | '[' :: rest =>
    if levels = 0 then none
    else do
      let (items, ⟨rest, h⟩) ← items? (levels - 1) rest
      some (.array items, ⟨rest, by simp only [List.length_cons]; omega⟩)
  | '\x7b' :: rest =>
    if levels = 0 then none
    else do
      let (pairs, ⟨rest, h⟩) ← members? (levels - 1) rest
      let entries ← putAll [] pairs
      some (.table entries .inline, ⟨rest, by simp only [List.length_cons]; omega⟩)
  | s =>
    match string? s with
    | some (value, rest) => some (.string value, rest)
    | none => wordValue? s
termination_by (s.length, 0)
decreasing_by all_goals exact Prod.Lex.left _ _ (by simp)

/-- The items of an array up to its bracket. The last one may have a comma behind it. -/
def items? (levels : Nat) (s : List Char) : Taken (List Toml) s := do
  let ⟨start, h⟩ ← gaps? s
  match hs : start with
  | ']' :: rest => some ([], ⟨rest, by simp only [hs, List.length_cons] at h; omega⟩)
  | start => do
    let (item, ⟨after, h'⟩) ← value? levels start
    let ⟨after, h''⟩ ← gaps? after
    match ha : after with
    | ']' :: rest => some ([item], ⟨rest, by simp only [hs, ha, List.length_cons] at *; omega⟩)
    | ',' :: rest => do
      let (items, ⟨rest, h'''⟩) ← items? levels rest
      some (item :: items, ⟨rest, by simp only [hs, ha, List.length_cons] at *; omega⟩)
    | _ => none
termination_by (s.length, 1)
decreasing_by
  · rcases Nat.lt_or_eq_of_le h with h | h
    · exact Prod.Lex.left _ _ (hs ▸ h)
    · rw [← hs, h]; exact Prod.Lex.right _ (by decide)
  · exact Prod.Lex.left _ _ (by simp only [hs, ha, List.length_cons] at *; omega)

/-- The pairs of an inline table up to its brace. The last one may have a comma behind it. -/
def members? (levels : Nat) (s : List Char) : Taken (List (Key × Toml)) s := do
  let ⟨start, h⟩ ← gaps? s
  match hs : start with
  | '\x7d' :: rest => some ([], ⟨rest, by simp only [hs, List.length_cons] at h; omega⟩)
  | start => do
    let (pair, ⟨after, h'⟩) ← pair? true levels start
    let ⟨after, h''⟩ ← gaps? after
    match ha : after with
    | '\x7d' :: rest => some ([pair], ⟨rest, by simp only [hs, ha, List.length_cons] at *; omega⟩)
    | ',' :: rest => do
      let (pairs, ⟨rest, h'''⟩) ← members? levels rest
      some (pair :: pairs, ⟨rest, by simp only [hs, ha, List.length_cons] at *; omega⟩)
    | _ => none
termination_by (s.length, 2)
decreasing_by
  · rcases Nat.lt_or_eq_of_le h with h | h
    · exact Prod.Lex.left _ _ (hs ▸ h)
    · rw [← hs, h]; exact Prod.Lex.right _ (by decide)
  · exact Prod.Lex.left _ _ (by simp only [hs, ha, List.length_cons] at *; omega)

def pair? (inBraces : Bool) (levels : Nat) (s : List Char) : Taken (Key × Toml) s := do
  let (key, ⟨rest, h⟩) ← key? s
  let ⟨rest, h'⟩ ← around? inBraces rest
  match hr : rest with
  | '=' :: after => do
    let ⟨after, h''⟩ ← around? inBraces after
    let (value, ⟨after, h'''⟩) ← value? levels after
    some ((key, value), ⟨after, by simp only [hr, List.length_cons] at h'; omega⟩)
  | _ => none
termination_by (s.length, 1)
decreasing_by exact Prod.Lex.left _ _ (by simp only [hr, List.length_cons] at h'; omega)

end

/-- A header: its key, and whether it stands in double brackets. -/
def header? (s : List Char) : Option ((Key × Bool) × List Char) :=
  match s with
  | '[' :: '[' :: rest => do
    let (key, ⟨rest, _⟩) ← key? (blanks rest)
    match rest with
    | ']' :: ']' :: rest => some ((key, true), rest)
    | _ => none
  | '[' :: rest => do
    let (key, ⟨rest, _⟩) ← key? (blanks rest)
    match rest with
    | ']' :: rest => some ((key, false), rest)
    | _ => none
  | _ => none

/-- The parts of a text from a line on: the pairs up to the next header, and the sections after it.
A step that took nothing from the text would end it without success. -/
def sections? (s : List Char) : Option (List (Key × Toml) × List Section) :=
  match skipGaps false s with
  | none => none
  | some [] => some ([], [])
  | some (c :: line) =>
    if c = '[' then do
      let ((key, repeated), rest) ← header? (c :: line)
      let rest ← lineEnd? rest
      if rest.length < s.length then do
        let (pairs, sections) ← sections? rest
        some ([], { key, repeated, pairs } :: sections)
      else none
    else do
      let (pair, ⟨rest, _⟩) ← pair? false maxNesting (c :: line)
      let rest ← lineEnd? rest
      if rest.length < s.length then do
        let (pairs, sections) ← sections? rest
        some (pair :: pairs, sections)
      else none
termination_by s.length

def read (text : String) : Option Entries := do
  let s := match text.toList with
    | '\ufeff' :: rest => rest
    | s => s
  let (pairs, sections) ← sections? s
  assemble pairs sections

end SlogHelpers.Toml
