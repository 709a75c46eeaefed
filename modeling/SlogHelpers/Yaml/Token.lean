import SlogHelpers.Yaml.Scalar

/-!
The tokens of a YAML text. Whether a scalar is a key shows only at the colon behind it, and where a
block collection ends only at the next token that is indented less. So a token that may be a key
stays a candidate for a while, and the columns of the open collections are kept.
-/
namespace SlogHelpers.Yaml

/-- The octets of a tag: escapes in it may make up octets that are no text. -/
abbrev Tag := List UInt8

def Tag.ofText (text : String) : Tag := text.toUTF8.toList

inductive Token where
  | version (major minor : Nat)
  /-- A directive that gives a tag handle its meaning. -/
  | tagDirective (handle : String) (lead : Tag)
  | documentStart
  | documentEnd
  | blockSequence
  | blockMapping
  | blockEnd
  | flowSequence
  | flowSequenceEnd
  | flowMapping
  | flowMappingEnd
  | blockEntry
  | flowEntry
  | key
  | value
  | alias (name : String)
  | anchor (name : String)
  | tag (handle : String) (suffix : Tag)
  | scalar (text : String) (style : Style)
  | textEnd
  deriving DecidableEq, Repr

def isWordChar (c : Char) : Bool := c.isAlphanum || c == '_' || c == '-'

/-- What may stand in a tag apart from word characters and escapes; between angle brackets a little
more may. -/
def isTagChar (verbatim : Bool) (c : Char) : Bool :=
  isWordChar c || ";/?:@&=+$.!~*'()".toList.contains c || (verbatim && ",[]".toList.contains c)

def octet? (high low : Glyph) : Option Nat := Text.digitsIn? 16 [high.char, low.char]

/-- How many octets are due behind an escaped one, of which `owed` were due before it. The first
bits of the first octet of a character tell how many follow, and nothing more is asked of them. -/
def owedAfter? (owed octet : Nat) : Option Nat :=
  if owed ≠ 0 then if octet / 64 = 2 then some (owed - 1) else none
  else if octet < 0x80 then some 0
  else if octet < 0xC0 then none
  else if octet < 0xE0 then some 1
  else if octet < 0xF0 then some 2
  else if octet < 0xF8 then some 3
  else none

/-- The octets of a tag at the front, of which `owed` are still due for a character whose first
octets were escaped. -/
def tagOctets (verbatim : Bool) (owed : Nat) : List Glyph → Option (Tag × List Glyph)
  | [] => if owed = 0 then some ([], []) else none
  | ⟨'%', _⟩ :: high :: low :: rest => do
    let octet ← octet? high low
    let owed ← owedAfter? owed octet
    let (tag, rest) ← tagOctets verbatim owed rest
    some (octet.toUInt8 :: tag, rest)
  | g :: rest =>
    if g.char = '%' || owed ≠ 0 then none
    else if isTagChar verbatim g.char then do
      let (tag, rest) ← tagOctets verbatim 0 rest
      some (g.char.toUInt8 :: tag, rest)
    else some ([], g :: rest)

/-- A tag ends at its first NUL. -/
def untilNul (tag : Tag) : Tag := tag.takeWhile (· ≠ 0)

def anchorName? (s : List Glyph) : Option (String × List Glyph) :=
  match takeChars isWordChar s with
  | ([], _) => none
  | (name, rest) =>
    let c := peek rest
    if isGap c || "?:,]\x7d%@\x60".toList.contains c then some (String.ofList name, rest) else none

/-- A tag handle at the front: an exclamation mark, and a word between two of them if there is one.
The flag tells whether it ended with a second mark. -/
def tagHandle (s : List Glyph) : List Char × Bool × List Glyph :=
  let (word, rest) := takeChars isWordChar (s.drop 1)
  if peek rest = '!' then ('!' :: word ++ ['!'], true, rest.drop 1) else ('!' :: word, false, rest)

/-- A tag, read from its exclamation mark on. The mark alone is a tag too. -/
def tag? (inFlow : Bool) (s : List Glyph) : Option (Token × List Glyph) := do
  let (token, rest) ←
    if peekAt 1 s = '<' then do
      let (tag, rest) ← tagOctets true 0 (s.drop 2)
      if tag.isEmpty || peek rest ≠ '>' then none
      else some (Token.tag "" (untilNul tag), rest.drop 1)
    else
      match tagHandle s with
      | (handle, true, rest) => do
        let (tag, rest) ← tagOctets false 0 rest
        if tag.isEmpty then none else some (Token.tag (String.ofList handle) (untilNul tag), rest)
      | (handle, false, rest) => do
        let (tag, rest) ← tagOctets false 0 rest
        let suffix := untilNul ((handle.drop 1).map Char.toUInt8 ++ tag)
        if suffix.isEmpty then some (Token.tag "" (Tag.ofText "!"), rest)
        else some (Token.tag "!" suffix, rest)
  if isGap (peek rest) || (inFlow && peek rest = ',') then some (token, rest) else none

def versionNumber? (s : List Glyph) : Option (Nat × List Glyph) :=
  match takeChars Char.isDigit s with
  | ([], _) => none
  | (digits, rest) =>
    if digits.length ≤ 9 then some ((String.ofList digits).toNat?.getD 0, rest) else none

def directive? (s : List Glyph) : Option (Token × List Glyph) := do
  let (name, rest) := takeChars isWordChar (s.drop 1)
  if !isGap (peek rest) then none
  let rest := dropChars isBlank rest
  let (token, rest) ←
    match String.ofList name with
    | "YAML" => do
      let (major, rest) ← versionNumber? rest
      if peek rest ≠ '.' then none
      let (minor, rest) ← versionNumber? (rest.drop 1)
      some (Token.version major minor, rest)
    | "TAG" => do
      if peek rest ≠ '!' then none
      let (handle, closed, rest) := tagHandle rest
      if !(closed || handle.length = 1) || !isBlank (peek rest) then none
      let (lead, rest) ← tagOctets true 0 (dropChars isBlank rest)
      if lead.isEmpty || !isGap (peek rest) then none
      some (Token.tagDirective (String.ofList handle) (untilNul lead), rest)
    | _ => none
  let rest ← lineEnd? rest
  some (token, rest)

/-- Without the blanks, comments and line breaks at the front, and whether a key may stand behind
them. Tabs do not count as blanks where they could pass for indentation; a byte order mark that
begins a line counts as one. -/
def skipGaps (inFlow keyAllowed inComment : Bool) : List Glyph → Bool × List Glyph
  | [] => (keyAllowed, [])
  | g :: rest =>
    if isBreak g.char then skipGaps inFlow (keyAllowed || !inFlow) false rest
    else if isEnd g.char then (keyAllowed, g :: rest)
    else if inComment then skipGaps inFlow keyAllowed true rest
    else if g.char = '#' then skipGaps inFlow keyAllowed true rest
    else if g.char = ' ' || (g.char = '\t' && (inFlow || !keyAllowed)) ||
        (g.char = '\ufeff' && g.mark.column = 0) then
      skipGaps inFlow keyAllowed false rest
    else (keyAllowed, g :: rest)

/-- A token that turns out to be a key if a colon follows on its line. -/
structure Candidate where
  position : Nat
  mark : Mark
  /-- It has to be a key, since it stands where the keys of the innermost block mapping do. -/
  required : Bool
  deriving DecidableEq, Repr

/-- The tokens read so far, and what decides about the next one. -/
structure Scan where
  rest : List Glyph
  tokens : Array Token := #[]
  /-- The column of the innermost block collection, and of those around it. -/
  indent : Int := -1
  outerIndents : List Int := []
  /-- The candidate of the innermost flow collection, and of those around it. -/
  candidate : Option Candidate := none
  outerCandidates : List (Option Candidate) := []
  keyAllowed : Bool := true

namespace Scan

def inFlow (s : Scan) : Bool := !s.outerCandidates.isEmpty

def add (s : Scan) (token : Token) : Scan := { s with tokens := s.tokens.push token }

def closeBlocks (column : Int) (tokens : Array Token) (indent : Int) :
    List Int → Array Token × Int × List Int
  | [] => (tokens, indent, [])
  | outer :: rest =>
    if column < indent then closeBlocks column (tokens.push .blockEnd) outer rest
    else (tokens, indent, outer :: rest)

/-- After the block collections that lie deeper than the column have ended; inside a flow collection
columns do not count. -/
def unroll (s : Scan) (column : Int) : Scan :=
  if s.inFlow then s
  else
    let (tokens, indent, outerIndents) := closeBlocks column s.tokens s.indent s.outerIndents
    { s with tokens, indent, outerIndents }

/-- With a block collection begun at the column, unless it is open already. Its token goes to the
given position. -/
def roll (s : Scan) (column position : Nat) (token : Token) : Scan :=
  if s.inFlow || (column : Int) ≤ s.indent then s
  else { s with
    indent := column
    outerIndents := s.indent :: s.outerIndents
    tokens := s.tokens.extract 0 position ++ #[token] ++ s.tokens.extract position s.tokens.size }

def dropCandidate (s : Scan) : Option Scan :=
  match s.candidate with
  | some candidate => if candidate.required then none else some { s with candidate := none }
  | none => some s

/-- Makes the token that comes next a candidate, if a key may stand here. -/
def saveCandidate (s : Scan) : Option Scan :=
  if s.keyAllowed then do
    let mark := place s.rest
    let required := !s.inFlow && s.indent == (mark.column : Int)
    let s ← s.dropCandidate
    some { s with candidate := some ⟨s.tokens.size, mark, required⟩ }
  else some s

/-- A candidate as it is at a place further on: it has to be on the same line and close by. -/
def refresh (here : Mark) : Option Candidate → Option (Option Candidate)
  | none => some none
  | some candidate =>
    if candidate.mark.line < here.line || candidate.mark.index + 1024 < here.index then
      if candidate.required then none else some none
    else some (some candidate)

/-- Goes on to the next token: past the gap in front of it, without candidates that are too far back
by now, and out of the blocks that it is not indented to. -/
def advance (s : Scan) : Option Scan := do
  let (keyAllowed, rest) := skipGaps s.inFlow s.keyAllowed false s.rest
  let here := place rest
  let candidate ← refresh here s.candidate
  let outerCandidates ← s.outerCandidates.mapM (refresh here)
  some ({ s with keyAllowed, rest, candidate, outerCandidates }.unroll here.column)

def boundary (s : Scan) (token : Token) (rest : List Glyph) : Option Scan := do
  let s ← (s.unroll (-1)).dropCandidate
  some { s.add token with rest, keyAllowed := false }

def openFlow (s : Scan) (token : Token) : Option Scan := do
  let s ← s.saveCandidate
  some { s.add token with
    rest := s.rest.drop 1
    candidate := none
    outerCandidates := s.candidate :: s.outerCandidates
    keyAllowed := true }

def closeFlow (s : Scan) (token : Token) : Option Scan := do
  let s ← s.dropCandidate
  let s := { s.add token with rest := s.rest.drop 1, keyAllowed := false }
  match s.outerCandidates with
  | [] => some s
  | candidate :: outerCandidates => some { s with candidate, outerCandidates }

def flowEntry (s : Scan) : Option Scan := do
  let s ← s.dropCandidate
  some { s.add .flowEntry with rest := s.rest.drop 1, keyAllowed := true }

def beginBlock (s : Scan) (token : Token) : Option Scan :=
  if s.inFlow then some s
  else if s.keyAllowed then some (s.roll (place s.rest).column s.tokens.size token)
  else none

def blockEntry (s : Scan) : Option Scan := do
  let s ← s.beginBlock .blockSequence
  let s ← s.dropCandidate
  some { s.add .blockEntry with rest := s.rest.drop 1, keyAllowed := true }

def explicitKey (s : Scan) : Option Scan := do
  let s ← s.beginBlock .blockMapping
  let s ← s.dropCandidate
  some { s.add .key with rest := s.rest.drop 1, keyAllowed := !s.inFlow }

def value (s : Scan) : Option Scan := do
  match s.candidate with
  | some candidate =>
    let n := candidate.position
    let tokens := s.tokens.extract 0 n ++ #[.key] ++ s.tokens.extract n s.tokens.size
    let s := { s with tokens }.roll candidate.mark.column n .blockMapping
    some { s.add .value with rest := s.rest.drop 1, candidate := none, keyAllowed := false }
  | none =>
    let s ← s.beginBlock .blockMapping
    some { s.add .value with rest := s.rest.drop 1, keyAllowed := !s.inFlow }

def property (s : Scan) (found : Option (Token × List Glyph)) : Option Scan := do
  let s ← s.saveCandidate
  let (token, rest) ← found
  some { s.add token with rest, keyAllowed := false }

def quoted (s : Scan) (style : Style) (found : Option (String × List Glyph)) : Option Scan := do
  let s ← s.saveCandidate
  let (text, rest) ← found
  some { s.add (.scalar text style) with rest, keyAllowed := false }

def blockScalar (s : Scan) (style : Style) : Option Scan := do
  let s ← s.dropCandidate
  let (text, rest) ← block (style == .folded) s.indent (s.rest.drop 1)
  some { s.add (.scalar text style) with rest, keyAllowed := true }

/-- A plain scalar. Behind a line break a key may follow it. -/
def plainScalar (s : Scan) : Option Scan := do
  let s ← s.saveCandidate
  let (text, broken, rest) ← plain s.inFlow (s.indent + 1).toNat false {} s.rest
  some { s.add (.scalar text .plain) with rest, keyAllowed := broken }

def startsPlain (inFlow : Bool) (s : List Glyph) : Bool :=
  let c := peek s
  !(isGap c || "-?:,[]\x7b\x7d#&*!|>'\"%@\x60".toList.contains c) ||
    (c == '-' && !isBlank (peekAt 1 s)) ||
    (!inFlow && (c == '?' || c == ':') && !isGap (peekAt 1 s))

def step (s : Scan) : Option Scan := do
  let s ← s.advance
  let column := (place s.rest).column
  let c := peek s.rest
  let inner := s.rest.drop 1
  if column = 0 && c = '%' then do
    let (token, rest) ← directive? s.rest
    s.boundary token rest
  else if isDocumentMark '-' s.rest then s.boundary .documentStart (s.rest.drop 3)
  else if isDocumentMark '.' s.rest then s.boundary .documentEnd (s.rest.drop 3)
  else if c = '[' then s.openFlow .flowSequence
  else if c = '\x7b' then s.openFlow .flowMapping
  else if c = ']' then s.closeFlow .flowSequenceEnd
  else if c = '\x7d' then s.closeFlow .flowMappingEnd
  else if c = ',' then s.flowEntry
  else if c = '-' && isGap (peek inner) then s.blockEntry
  else if c = '?' && (s.inFlow || isGap (peek inner)) then s.explicitKey
  else if c = ':' && (s.inFlow || isGap (peek inner)) then s.value
  else if c = '*' then s.property ((anchorName? inner).map fun (n, rest) => (.alias n, rest))
  else if c = '&' then s.property ((anchorName? inner).map fun (n, rest) => (.anchor n, rest))
  else if c = '!' then s.property (tag? s.inFlow s.rest)
  else if c = '|' && !s.inFlow then s.blockScalar .literal
  else if c = '>' && !s.inFlow then s.blockScalar .folded
  else if c = '\'' then s.quoted .singleQuoted (singleQuoted {} inner)
  else if c = '"' then s.quoted .doubleQuoted (doubleQuoted {} inner)
  else if startsPlain s.inFlow s.rest then s.plainScalar
  else none

/-- The end of the text: all blocks end, and no key may be missing its colon. -/
def finish (s : Scan) : Option (List Token) := do
  let s ← (s.unroll (-1)).dropCandidate
  some ((s.add .textEnd).tokens.toList)

/-- Reads tokens until the text ends. A step that took nothing from the text would end it without
success. -/
def run (s : Scan) : Option (List Token) :=
  match s.advance with
  | none => none
  | some ready =>
    if isEnd (peek ready.rest) then ready.finish
    else
      match s.step with
      | none => none
      | some next => if next.rest.length < s.rest.length then run next else none
termination_by s.rest.length

end Scan

def tokens? (text : String) : Option (List Token) := do
  let glyphs ← glyphs? text.toList
  Scan.run { rest := glyphs }

end SlogHelpers.Yaml
