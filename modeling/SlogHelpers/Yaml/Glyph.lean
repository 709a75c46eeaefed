/-!
The characters of a YAML text with their places. Columns and lines are what block structure is told
by, so they are laid down once, before anything is read.
-/
namespace SlogHelpers.Yaml

structure Mark where
  /-- Octets in front of it. -/
  index : Nat
  line : Nat
  /-- Characters in front of it on its line. -/
  column : Nat
  deriving DecidableEq, Repr

/-- A character with its place. A text ends with a NUL, which stands nowhere else. -/
structure Glyph where
  char : Char
  mark : Mark
  deriving DecidableEq, Repr

def isAllowed (c : Char) : Bool :=
  let n := c.toNat
  n == 0x09 || n == 0x0A || n == 0x0D || (0x20 ≤ n && n ≤ 0x7E) || n == 0x85 ||
    (0xA0 ≤ n && n ≤ 0xFFFD) || 0x10000 ≤ n

/-- Whether the character ends a line. Of the characters that do, line feed stands for all but the
two that are kept as they are. -/
def isBreak (c : Char) : Bool := c == '\n' || c == '\u2028' || c == '\u2029'

def isBlank (c : Char) : Bool := c == ' ' || c == '\t'

def isEnd (c : Char) : Bool := c == '\x00'

def isBreakOrEnd (c : Char) : Bool := isBreak c || isEnd c

def isGap (c : Char) : Bool := isBlank c || isBreakOrEnd c

def Mark.next (mark : Mark) (c : Char) : Mark :=
  { mark with index := mark.index + c.utf8Size, column := mark.column + 1 }

def Mark.nextLine (mark : Mark) (size : Nat) : Mark := ⟨mark.index + size, mark.line + 1, 0⟩

/-- The glyphs of a text from a place on. A carriage return, with a line feed behind it or without,
and the next-line character become line feeds. -/
def glyphsFrom (mark : Mark) : List Char → List Glyph
  | [] => [⟨'\x00', mark⟩]
  | '\x0d' :: '\n' :: rest => ⟨'\n', mark⟩ :: glyphsFrom (mark.nextLine 2) rest
  | c :: rest =>
    if c = '\x0d' || c = '\x85' then ⟨'\n', mark⟩ :: glyphsFrom (mark.nextLine c.utf8Size) rest
    else if isBreak c then ⟨c, mark⟩ :: glyphsFrom (mark.nextLine c.utf8Size) rest
    else ⟨c, mark⟩ :: glyphsFrom (mark.next c) rest

def glyphs? (text : List Char) : Option (List Glyph) :=
  if text.all isAllowed then some (glyphsFrom ⟨0, 0, 0⟩ text) else none

def peek : List Glyph → Char
  | [] => '\x00'
  | g :: _ => g.char

def peekAt (n : Nat) (s : List Glyph) : Char := peek (s.drop n)

def place : List Glyph → Mark
  | [] => ⟨0, 0, 0⟩
  | g :: _ => g.mark

def takeChars (p : Char → Bool) (s : List Glyph) : List Char × List Glyph :=
  ((s.takeWhile fun g => p g.char).map (·.char), s.dropWhile fun g => p g.char)

def dropChars (p : Char → Bool) (s : List Glyph) : List Glyph := s.dropWhile fun g => p g.char

/-- Whether a line begins with the character three times and then a gap, which is how the start and
the end of a document are marked. -/
def isDocumentMark (c : Char) (s : List Glyph) : Bool :=
  (place s).column == 0 && peek s == c && peekAt 1 s == c && peekAt 2 s == c && isGap (peekAt 3 s)

def isDocumentBoundary (s : List Glyph) : Bool := isDocumentMark '-' s || isDocumentMark '.' s

end SlogHelpers.Yaml
