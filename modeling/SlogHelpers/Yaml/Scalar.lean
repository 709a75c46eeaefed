import SlogHelpers.Text.Hex
import SlogHelpers.Text.Rest
import SlogHelpers.Yaml.Glyph

/-!
Scalars of YAML texts: plain ones, quoted ones, and blocks of lines, each with the way in which it
folds its line breaks.
-/
namespace SlogHelpers.Yaml

inductive Style where
  | plain
  | singleQuoted
  | doubleQuoted
  | literal
  | folded
  deriving DecidableEq, Repr

/-- The text of a scalar so far, and the gap behind it whose fate the next character decides. -/
structure Folding where
  /-- The text, last character first. -/
  text : List Char := []
  blanks : List Char := []
  /-- A line break lies in the gap, so the blanks in it do not count. -/
  broken : Bool := false
  /-- The first line break of the gap, unless it was escaped. -/
  firstBreak : Option Char := none
  /-- The other line breaks of the gap, last one first. -/
  moreBreaks : List Char := []

namespace Folding

def blank (f : Folding) (c : Char) : Folding :=
  if f.broken then f else { f with blanks := c :: f.blanks }

def lineBreak (f : Folding) (c : Char) : Folding :=
  if f.broken then { f with moreBreaks := c :: f.moreBreaks }
  else { f with blanks := [], broken := true, firstBreak := some c }

/-- With a line break in the gap that leaves no trace. -/
def escapedBreak (f : Folding) : Folding :=
  { f with blanks := [], broken := true, firstBreak := none }

/-- What the gap turns into, last character first: its blanks; or a space for a single line break;
or the line breaks after the first. The two breaks that are not line feeds are always kept. -/
def gap (f : Folding) : List Char :=
  if !f.broken then f.blanks
  else match f.firstBreak with
    | some '\n' => if f.moreBreaks.isEmpty then [' '] else f.moreBreaks
    | some c => f.moreBreaks ++ [c]
    | none => f.moreBreaks

def close (f : Folding) : Folding := { text := f.gap ++ f.text }

def push (f : Folding) (c : Char) : Folding := { text := c :: f.gap ++ f.text }

def result (f : Folding) : String := String.ofList f.text.reverse

end Folding

def letterEscape? : Char → Option Char
  | '0' => some '\x00'
  | 'a' => some '\x07'
  | 'b' => some '\x08'
  | 't' => some '\t'
  | '\t' => some '\t'
  | 'n' => some '\n'
  | 'v' => some '\x0b'
  | 'f' => some '\x0c'
  | 'r' => some '\x0d'
  | 'e' => some '\x1b'
  | ' ' => some ' '
  | '"' => some '"'
  | '/' => some '/'
  | '\\' => some '\\'
  | 'N' => some '\x85'
  | '_' => some '\xa0'
  | 'L' => some '\u2028'
  | 'P' => some '\u2029'
  | _ => none

def escapeDigits? : Char → Option Nat
  | 'x' => some 2
  | 'u' => some 4
  | 'U' => some 8
  | _ => none

def escape? (s : List Glyph) : Option (Char × { rest : List Glyph // rest.length < s.length }) :=
  match s with
  | [] => none
  | g :: rest =>
    match escapeDigits? g.char with
    | some n =>
      if n ≤ rest.length then
        (Text.hexChar? ((rest.take n).map (·.char))).map fun c =>
          (c, ⟨rest.drop n, Text.drop_tail_lt n rest⟩)
      else none
    | none => (letterEscape? g.char).map fun c => (c, ⟨rest, Text.tail_lt rest⟩)

/-- A scalar between single quotes, read from behind the first. Two quotes stand for one. -/
def singleQuoted (f : Folding) : List Glyph → Option (String × List Glyph)
  | [] => none
  | g :: rest =>
    if isBlank g.char then singleQuoted (f.blank g.char) rest
    else if isBreak g.char then singleQuoted (f.lineBreak g.char) rest
    else if isEnd g.char || isDocumentBoundary (g :: rest) then none
    else if g.char = '\'' then
      match rest with
      | ⟨'\'', _⟩ :: rest => singleQuoted (f.push '\'') rest
      | rest => some (f.close.result, rest)
    else singleQuoted (f.push g.char) rest

def doubleQuoted (f : Folding) (s : List Glyph) : Option (String × List Glyph) :=
  match s with
  | [] => none
  | g :: rest =>
    if isBlank g.char then doubleQuoted (f.blank g.char) rest
    else if isBreak g.char then doubleQuoted (f.lineBreak g.char) rest
    else if isEnd g.char || isDocumentBoundary (g :: rest) then none
    else if g.char = '"' then some (f.close.result, rest)
    else if g.char = '\\' then
      match rest with
      | b :: after =>
        if isBreak b.char then doubleQuoted f.close.escapedBreak after
        else
          match escape? (b :: after) with
          | some (c, ⟨after, _h⟩) => doubleQuoted (f.push c) after
          | none => none
      | [] => none
    else doubleQuoted (f.push g.char) rest
termination_by s.length
decreasing_by all_goals (simp only [List.length_cons] at *; omega)

/-- A flow indicator other than the comma, which ends a plain scalar inside brackets or braces. -/
def isBracket (c : Char) : Bool := c == '[' || c == ']' || c == '{' || c == '}'

/-- A plain scalar up to where it ends: at a colon before a gap, at a comment, at a bracket or a
comma inside brackets, at a document boundary, or at a line that is not indented to `indent`
columns. Also tells whether a line break lies behind it. `atGap` says that a gap has just been
left. -/
def plain (inFlow : Bool) (indent : Nat) (atGap : Bool) (f : Folding) :
    List Glyph → Option (String × Bool × List Glyph)
  | [] => some (f.result, f.broken, [])
  | g :: rest =>
    if isBlank g.char then
      if f.broken && g.mark.column < indent && g.char = '\t' then none
      else plain inFlow indent true (f.blank g.char) rest
    else if isBreak g.char then plain inFlow indent true (f.lineBreak g.char) rest
    else if isEnd g.char ||
        (atGap && ((!inFlow && g.mark.column < indent) || isDocumentBoundary (g :: rest) ||
          g.char = '#')) then
      some (f.result, f.broken, g :: rest)
    else if inFlow && g.char = ':' &&
      (isBracket (peek rest) || peek rest = ',' || peek rest = '?') then none
    else if (g.char = ':' && isGap (peek rest)) ||
      (inFlow && (isBracket g.char || g.char = ',')) then
      some (f.result, f.broken, g :: rest)
    else plain inFlow indent false (f.push g.char) rest

inductive Chomping where
  | strip
  | clip
  | keep
  deriving DecidableEq, Repr

def chomping? (s : List Glyph) : Option (Chomping × List Glyph) :=
  match s with
  | ⟨'+', _⟩ :: rest => some (.keep, rest)
  | ⟨'-', _⟩ :: rest => some (.strip, rest)
  | _ => none

/-- The indentation mark at the front, zero if there is none; the mark itself may not be zero. -/
def indentation? (s : List Glyph) : Option (Nat × List Glyph) :=
  match s with
  | [] => some (0, [])
  | g :: rest =>
    if g.char = '0' then none
    else if g.char.isDigit then some (g.char.toNat - '0'.toNat, rest)
    else some (0, g :: rest)

def blockMarks? (s : List Glyph) : Option (Chomping × Nat × List Glyph) :=
  match chomping? s with
  | some (chomping, rest) => (indentation? rest).map fun (n, rest) => (chomping, n, rest)
  | none => (indentation? s).map fun (n, rest) =>
    if n = 0 then (.clip, 0, rest)
    else match chomping? rest with
      | some (chomping, rest) => (chomping, n, rest)
      | none => (.clip, n, rest)

def lineEnd? (s : List Glyph) : Option (List Glyph) :=
  let s := dropChars isBlank s
  let s := if peek s = '#' then dropChars (!isBreakOrEnd ·) s else s
  match s with
  | [] => some []
  | g :: rest =>
    if isBreak g.char then some rest else if isEnd g.char then some (g :: rest) else none

/-- The empty lines at the front of a block, whose line breaks come out last one first, and the
deepest column that they and the line behind them are indented to. `indent` is zero where it is not
known yet. A tab may not stand where indentation is due. -/
def blockGap (indent deepest : Nat) (breaks : List Char) (s : List Glyph) :
    Option (List Char × Nat × { rest : List Glyph // rest.length ≤ s.length }) :=
  match s with
  | [] => some (breaks, deepest, ⟨[], Nat.le_refl _⟩)
  | g :: rest =>
    let due : Bool := indent = 0 || g.mark.column < indent
    if due && g.char = ' ' then
      (blockGap indent deepest breaks rest).map fun (b, d, ⟨r, h⟩) =>
        (b, d, ⟨r, Nat.le_succ_of_le h⟩)
    else if due && g.char = '\t' then none
    else if isBreak g.char then
      (blockGap indent (max deepest g.mark.column) (g.char :: breaks) rest).map
        fun (b, d, ⟨r, h⟩) => (b, d, ⟨r, Nat.le_succ_of_le h⟩)
    else some (breaks, max deepest g.mark.column, ⟨g :: rest, Nat.le_refl _⟩)

structure Block where
  /-- The text, last character first. -/
  text : List Char := []
  lastBreak : Option Char := none
  /-- The line breaks of the empty lines behind it, last one first. -/
  breaks : List Char := []
  indented : Bool := false

/-- With a line behind the gap. The line break before it folds into a space, unless one of the two
lines begins with a blank or an empty line lies between them. -/
def Block.line (b : Block) (folded : Bool) (first : Char) (others : List Char) : Block :=
  let folds := folded && b.lastBreak == some '\n' && !b.indented && !isBlank first
  let join := if folds then (if b.breaks.isEmpty then [' '] else []) else b.lastBreak.toList
  { text := others.reverse ++ first :: b.breaks ++ join ++ b.text, indented := isBlank first }

def Block.result (b : Block) (chomping : Chomping) : String :=
  let tail := match chomping with
    | .strip => []
    | .clip => b.lastBreak.toList
    | .keep => b.breaks ++ b.lastBreak.toList
  String.ofList (tail ++ b.text).reverse

def blockLines (folded : Bool) (indent : Nat) (b : Block) (s : List Glyph) :
    Option (Block × List Glyph) :=
  match s with
  | [] => some (b, [])
  | g :: rest =>
    if g.mark.column ≠ indent || isEnd g.char then some (b, g :: rest)
    else
      let others := (rest.takeWhile fun g => !isBreakOrEnd g.char).map (·.char)
      let b := b.line folded g.char others
      match _hr : rest.dropWhile fun g => !isBreakOrEnd g.char with
      | [] => some (b, [])
      | e :: after =>
        if isBreak e.char then
          match blockGap indent 0 [] after with
          | none => none
          | some (breaks, _, ⟨next, _h⟩) =>
            blockLines folded indent { b with lastBreak := some e.char, breaks } next
        else some (b, e :: after)
termination_by s.length
decreasing_by
  have := (List.dropWhile_sublist (l := rest) fun g => !isBreakOrEnd g.char).length_le
  rw [_hr] at this
  simp only [List.length_cons] at *
  omega

/-- A block scalar, read from behind its indicator. Without an indentation mark the first line that
is not empty tells how far the block is indented, which is at least one column more than `parent`,
the column of the collection it is in. -/
def block (folded : Bool) (parent : Int) (s : List Glyph) : Option (String × List Glyph) := do
  let (chomping, increment, rest) ← blockMarks? s
  let rest ← lineEnd? rest
  let known :=
    if increment = 0 then 0 else if 0 ≤ parent then parent.toNat + increment else increment
  let (breaks, deepest, ⟨rest, _⟩) ← blockGap known 0 [] rest
  let indent := if known = 0 then max deepest (max (parent + 1).toNat 1) else known
  let (b, rest) ← blockLines folded indent { breaks } rest
  some (b.result chomping, rest)

end SlogHelpers.Yaml
