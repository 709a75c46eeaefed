import SlogHelpers.Proofs.Source.Literal
import SlogHelpers.Source.Identifier

/-!
The tokens of Go that types are written with. A text is scanned from left to right, each token as
long as it can be; spaces and tabs between tokens tell them apart and mean nothing else.
-/
namespace SlogHelpers.Source

inductive Keyword where
  | chan
  | func
  | interface
  | map
  | struct
  deriving DecidableEq, Repr

namespace Keyword

def word : Keyword → List Char
  | .chan => ['c', 'h', 'a', 'n']
  | .func => ['f', 'u', 'n', 'c']
  | .interface => ['i', 'n', 't', 'e', 'r', 'f', 'a', 'c', 'e']
  | .map => ['m', 'a', 'p']
  | .struct => ['s', 't', 'r', 'u', 'c', 't']

def ofWord? (word : List Char) : Option Keyword :=
  [chan, func, interface, map, struct].find? (·.word = word)

end Keyword

/-- The marks that types are written with. A bar stands for itself even where another follows it,
since no type has two in a row. -/
inductive Mark where
  | openRound
  | closeRound
  | openSquare
  | closeSquare
  | openCurly
  | closeCurly
  | dot
  | dots
  | comma
  | semicolon
  | star
  | arrow
  | bar
  | tilde
  deriving DecidableEq, Repr

/-- The marks as they are written, the longer ones before those that begin them. -/
def Mark.spellings : List (List Char × Mark) := [
  (['.', '.', '.'], .dots),
  (['<', '-'], .arrow),
  (['('], .openRound),
  ([')'], .closeRound),
  (['['], .openSquare),
  ([']'], .closeSquare),
  (['\x7b'], .openCurly),
  (['\x7d'], .closeCurly),
  (['.'], .dot),
  ([','], .comma),
  ([';'], .semicolon),
  (['*'], .star),
  (['|'], .bar),
  (['~'], .tilde)]

inductive Token where
  | keyword (keyword : Keyword)
  | word (word : List Char)
  | number (digits : List Char)
  | raw (body : List Char)
  /-- A string literal with its double quotes, whatever its escapes are. -/
  | interpreted (literal : List Char)
  | mark (mark : Mark)
  deriving DecidableEq, Repr

/-! ## Literals -/

/-- Digits to the base, with at most one underscore between any two. -/
def isDigitRun (base : Nat) (digits : List Char) : Bool :=
  (digits.splitOn '_').all fun part => (Text.digitsIn? base part).isSome

/-- An integer literal: decimal without leading zeros, or to the base that its prefix tells; an
underscore may follow the prefix. -/
def isIntLiteral (digits : List Char) : Bool :=
  let prefixed (base : Nat) (rest : List Char) : Bool :=
    isDigitRun base rest || (rest.head? = some '_' && isDigitRun base rest.tail)
  match digits with
  | '0' :: c :: rest =>
    if c = 'b' ∨ c = 'B' then prefixed 2 rest
    else if c = 'o' ∨ c = 'O' then prefixed 8 rest
    else if c = 'x' ∨ c = 'X' then prefixed 16 rest
    else prefixed 8 (c :: rest)
  | _ => isDigitRun 10 digits

/-- All escapes of the literal are Go's, and no line ends in it. -/
def isInterpretedLiteral (literal : List Char) : Bool :=
  (Interpreted.octets? literal).any fun found => found.2.isEmpty

/-- The rest of a literal up to its closing quote, and what follows it. A backslash takes the next
character with it. -/
def closed? : List Char → Option (List Char × List Char)
  | [] => none
  | c :: rest =>
    if c = '"' then some ([c], rest)
    else if c = '\n' then none
    else if c = '\\' then
      match rest with
      | [] => none
      | d :: rest => (closed? rest).map fun found => (c :: d :: found.1, found.2)
    else (closed? rest).map fun found => (c :: found.1, found.2)

/-! ## Scanning -/

def mark? (s : List Char) : Option (Token × List Char) :=
  Mark.spellings.findSome? fun entry =>
    if entry.1.isPrefixOf s then some (.mark entry.2, s.drop entry.1.length) else none

def Token.ofWord (word : List Char) : Token := (Keyword.ofWord? word).elim (.word word) .keyword

/-- The first token of a text that does not begin with a blank, and what follows it. -/
def token? : List Char → Option (Token × List Char)
  | [] => none
  | c :: rest =>
    if Text.isLetter c then
      some (.ofWord (c :: rest.takeWhile Text.isNameChar), rest.dropWhile Text.isNameChar)
    else if c.isDigit then
      some (.number (c :: rest.takeWhile Text.isNameChar), rest.dropWhile Text.isNameChar)
    else if c = '\x60' then
      match rest.dropWhile (· ≠ c) with
      | [] => none
      | _ :: behind => some (.raw (rest.takeWhile (· ≠ c)), behind)
    else if c = '"' then (closed? rest).map fun found => (.interpreted (c :: found.1), found.2)
    else mark? (c :: rest)

theorem length_closed?_lt {s body rest : List Char} (h : closed? s = some (body, rest)) :
    rest.length < s.length := by
  fun_induction closed? s generalizing body rest with
  | case1 => cases h
  | case2 s =>
    obtain ⟨-, rfl⟩ := Prod.mk.inj (Option.some.inj h)
    simp
  | case3 => cases h
  | case4 => cases h
  | case5 d s hq hn ih =>
    obtain ⟨found, hf, h⟩ := Option.map_eq_some_iff.1 h
    obtain ⟨-, rfl⟩ := Prod.mk.inj h
    have hlt := ih hf
    simp only [List.length_cons]
    omega
  | case6 c s hq hn hb ih =>
    obtain ⟨found, hf, h⟩ := Option.map_eq_some_iff.1 h
    obtain ⟨-, rfl⟩ := Prod.mk.inj h
    exact Nat.lt_succ_of_lt (ih hf)

theorem length_mark?_lt {s rest : List Char} {token : Token} (h : mark? s = some (token, rest)) :
    rest.length < s.length := by
  obtain ⟨entry, hm, hs⟩ := List.exists_of_findSome?_eq_some h
  split at hs
  · next hp =>
    obtain ⟨-, rfl⟩ := Prod.mk.inj (Option.some.inj hs)
    have hpos : ∀ entry ∈ Mark.spellings, 0 < entry.1.length := by decide
    have hlen := (List.isPrefixOf_iff_prefix.1 hp).length_le
    have hspelling := hpos _ hm
    rw [List.length_drop]
    omega
  · cases hs

theorem length_token?_lt {s rest : List Char} {token : Token} (h : token? s = some (token, rest)) :
    rest.length < s.length := by
  cases s with
  | nil => cases h
  | cons c s =>
    have hdrop (p : Char → Bool) : (s.dropWhile p).length < (c :: s).length :=
      Nat.lt_succ_of_le (List.dropWhile_sublist _).length_le
    rw [token?] at h
    split at h
    · obtain ⟨-, rfl⟩ := Prod.mk.inj (Option.some.inj h)
      exact hdrop _
    · split at h
      · obtain ⟨-, rfl⟩ := Prod.mk.inj (Option.some.inj h)
        exact hdrop _
      · split at h
        · split at h
          · cases h
          · next hd =>
            obtain ⟨-, rfl⟩ := Prod.mk.inj (Option.some.inj h)
            have hlt := hdrop (· ≠ c)
            rw [hd, List.length_cons] at hlt
            omega
        · split at h
          · obtain ⟨found, hf, h⟩ := Option.map_eq_some_iff.1 h
            obtain ⟨-, rfl⟩ := Prod.mk.inj h
            exact Nat.lt_succ_of_lt (length_closed?_lt hf)
          · exact length_mark?_lt h

def tokens? (s : List Char) : Option (List Token) :=
  match s with
  | [] => some []
  | c :: rest =>
    if c = ' ' ∨ c = '\t' then tokens? rest
    else
      match _h : token? (c :: rest) with
      | none => none
      | some (token, behind) => (tokens? behind).map (token :: ·)
termination_by s.length
decreasing_by
  · simp
  · exact length_token?_lt _h

theorem tokens?_nil : tokens? [] = some [] := by rw [tokens?]

theorem tokens?_blank {c : Char} (hc : c = ' ' ∨ c = '\t') (s : List Char) :
    tokens? (c :: s) = tokens? s := by
  rw [tokens?, if_pos hc]

theorem token?_blank {c : Char} (hc : c = ' ' ∨ c = '\t') (s : List Char) :
    token? (c :: s) = none := by
  obtain rfl | rfl := hc
  · rfl
  · rfl

theorem tokens?_of_token? {s rest : List Char} {token : Token} (h : token? s = some (token, rest)) :
    tokens? s = (tokens? rest).map (token :: ·) := by
  cases s with
  | nil => cases h
  | cons c s =>
    have hc : ¬ (c = ' ' ∨ c = '\t') := by
      intro hc
      rw [token?_blank hc] at h
      cases h
    rw [tokens?, if_neg hc]
    split
    · next hn =>
      rw [h] at hn
      cases hn
    · next hf =>
      rw [h] at hf
      cases hf
      rfl

/-! ## Words that are scanned by themselves -/

/-- Whatever follows it, the word is scanned as these tokens. -/
def Lexes (word : List Char) (ts : List Token) : Prop :=
  ∀ rest, tokens? (word ++ rest) = (tokens? rest).map (ts ++ ·)

variable {u w : List Char} {ts us : List Token} {c : Char}

theorem Lexes.append (hu : Lexes u ts) (hw : Lexes w us) : Lexes (u ++ w) (ts ++ us) := by
  intro rest
  rw [List.append_assoc, hu, hw, Option.map_map]
  exact congrArg (Option.map · _) (funext fun more => (List.append_assoc ts us more).symm)

theorem Lexes.unique (h : Lexes w ts) (h' : Lexes w us) : ts = us := by
  have hs := (h []).symm.trans (h' [])
  simpa [tokens?_nil] using hs

theorem lexes_blank (hc : c = ' ' ∨ c = '\t') : Lexes [c] [] := by
  intro rest
  rw [List.singleton_append, tokens?_blank hc]
  exact Option.map_id'.symm

theorem lexes_of_token? {token : Token} (h : ∀ rest, token? (w ++ rest) = some (token, rest)) :
    Lexes w [token] :=
  fun rest => tokens?_of_token? (h rest)

/-- Every mark but the dot is told by its own characters. -/
theorem lexes_mark {spelling : List Char} {mark : Mark} (h : (spelling, mark) ∈ Mark.spellings)
    (hd : mark ≠ .dot) :
    Lexes spelling [.mark mark] := by
  refine lexes_of_token? fun rest => ?_
  simp only [Mark.spellings, List.mem_cons, Prod.mk.injEq, List.not_mem_nil, or_false] at h
  obtain ⟨rfl, rfl⟩ | ⟨rfl, rfl⟩ | ⟨rfl, rfl⟩ | ⟨rfl, rfl⟩ | ⟨rfl, rfl⟩ | ⟨rfl, rfl⟩ | ⟨rfl, rfl⟩
      | ⟨rfl, rfl⟩ |
    ⟨rfl, rfl⟩ | ⟨rfl, rfl⟩ | ⟨rfl, rfl⟩ | ⟨rfl, rfl⟩ | ⟨rfl, rfl⟩ | ⟨rfl, rfl⟩ := h
  case inr.inr.inr.inr.inr.inr.inr.inr.inl => exact absurd rfl hd
  all_goals rfl

theorem token?_dot {s : List Char} (h : s.head? ≠ some '.') :
    token? ('.' :: s) = some (.mark .dot, s) := by
  have hd : ['.', '.', '.'].isPrefixOf ('.' :: s) = false := by
    cases s with
    | nil => rfl
    | cons c s =>
      have hc : ('.' == c) = false := beq_false_of_ne fun he => h (he ▸ rfl)
      simp [List.isPrefixOf_cons_cons, hc]
  rw [token?, if_neg (by decide), if_neg (by decide), if_neg (by decide), if_neg (by decide), mark?,
    Mark.spellings, List.findSome?_cons]
  dsimp only
  rw [hd]
  rfl

theorem token?_of_isLetter {s : List Char} (h : s.head?.any Text.isLetter = true) :
    token? s = some (.ofWord (s.takeWhile Text.isNameChar), s.dropWhile Text.isNameChar) := by
  cases s with
  | nil => cases h
  | cons c s =>
    have hc : Text.isLetter c = true := h
    have hn : Text.isNameChar c = true := by rw [Text.isNameChar, hc, Bool.true_or]
    rw [token?, if_pos hc, List.takeWhile_cons_of_pos hn, List.dropWhile_cons_of_pos hn]

theorem Token.ofWord_of_isIdentifierChars (h : isIdentifierChars w = true) :
    ofWord w = .word w := by
  have hk : ∀ keyword : Keyword, keyword.word ≠ w := by
    rintro keyword rfl
    cases keyword <;> revert h <;> decide
  have hn : Keyword.ofWord? w = none :=
    List.find?_eq_none.2 fun keyword _ he => hk keyword (of_decide_eq_true he)
  rw [ofWord, hn]
  rfl

/-- A keyword is told as such in front of anything that cannot go on with it. -/
theorem lexes_keyword (keyword : Keyword) (hc : Text.isNameChar c = false) (h : Lexes (c :: w) ts) :
    Lexes (keyword.word ++ c :: w) (.keyword keyword :: ts) := by
  intro rest
  have hn : ∀ d ∈ keyword.word, Text.isNameChar d = true :=
    List.all_eq_true.1 (by cases keyword <;> rfl)
  have hl : (keyword.word ++ c :: (w ++ rest)).head?.any Text.isLetter = true := by
    cases keyword <;> rfl
  have hk : Token.ofWord keyword.word = .keyword keyword := by cases keyword <;> decide
  have ht :
      token? (keyword.word ++ c :: (w ++ rest)) = some (.keyword keyword, c :: (w ++ rest)) := by
    rw [token?_of_isLetter hl, List.takeWhile_append_of_pos hn, List.dropWhile_append_of_pos hn,
      List.takeWhile_cons_of_neg (by simp [hc]), List.dropWhile_cons_of_neg (by simp [hc]),
      List.append_nil, hk]
  rw [List.append_assoc, List.cons_append, tokens?_of_token? ht, ← List.cons_append, h,
    Option.map_map]
  rfl

end SlogHelpers.Source
