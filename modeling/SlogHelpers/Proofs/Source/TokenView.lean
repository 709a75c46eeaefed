import SlogHelpers.Proofs.Source.Identifier
import SlogHelpers.Proofs.Source.Tokens
import SlogHelpers.Proofs.Source.View

/-!
Texts of types seen as their tokens: what the readers take off a text is scanned as whole tokens, so
that one reader never ends within a token that the next goes on with.
-/
namespace SlogHelpers.Source.TypeText

variable {s w rest : List Char} {ts : List Token} {c : Char} {t : Taker}

def lexed (word : List Char) : Language Token := {ts | Lexes word ts}

def words : Language Token := {ts | ∃ word, isIdentifierChars word = true ∧ ts = [.word word]}

def names : Language Token := words + words * {[.mark .dot]} * words

def numbers : Language Token := {ts | ∃ digits, ts = [.number digits]}

def literals : Language Token :=
  {ts | (∃ body, ts = [.raw body]) ∨ ∃ literal, ts = [.interpreted literal]}

theorem lexed_eq (h : Lexes w ts) : lexed w = {ts} := by
  ext us
  exact ⟨fun hu => Lexes.unique hu h, fun hu => hu ▸ h⟩

theorem precedes_of_lexes (h : Lexes w ts) : Precedes tokens? {ts} (w ++ rest) rest := by
  intro more hm
  exact ⟨ts, rfl, by rw [h, hm]; rfl⟩

theorem precedes_of_token? {token : Token} (h : token? s = some (token, rest)) :
    Precedes tokens? {[token]} s rest := by
  intro more hm
  exact ⟨[token], rfl, by rw [tokens?_of_token? h, hm]; rfl⟩

theorem precedes_lexed (h : ∃ ts, Lexes w ts) : Precedes tokens? (lexed w) (w ++ rest) rest := by
  obtain ⟨ts, h⟩ := h
  rw [lexed_eq h]
  exact precedes_of_lexes h

/-! ## Blanks and single words -/

theorem tokens?_skipSpaces (s : List Char) : tokens? (skipSpaces s) = tokens? s := by
  induction s with
  | nil => rfl
  | cons c s ih =>
    by_cases hc : (c == ' ' || c == '\t') = true
    · have hskip : skipSpaces (c :: s) = skipSpaces s := List.dropWhile_cons_of_pos hc
      rw [hskip, ih, tokens?_blank (by simpa using hc)]
    · have hskip : skipSpaces (c :: s) = c :: s := List.dropWhile_cons_of_neg hc
      rw [hskip]

theorem precedes_skipSpaces (s : List Char) : Precedes tokens? 1 s (skipSpaces s) := by
  intro more hm
  exact ⟨[], rfl, by rw [← tokens?_skipSpaces, hm]; rfl⟩

/-- Whether the word is a space or a mark, and no dot. -/
def isOwnLexeme (word : List Char) : Bool :=
  word == [' '] || Mark.spellings.any fun entry => entry.1 == word && entry.2 != .dot

theorem exists_lexes (h : isOwnLexeme w = true) : ∃ ts, Lexes w ts := by
  rw [isOwnLexeme, Bool.or_eq_true, List.any_eq_true] at h
  obtain h | ⟨entry, he, h⟩ := h
  · rw [eq_of_beq h]
    exact ⟨_, lexes_blank (.inl rfl)⟩
  · obtain ⟨hw, hd⟩ := Bool.and_eq_true_iff.1 h
    rw [← eq_of_beq hw]
    exact ⟨_, lexes_mark he (bne_iff_ne.1 hd)⟩

theorem lexes_of_mem_signs (h : c ∈ signs) : ∃ ts, Lexes [c] ts := by
  have hall : signs.all (fun c => isOwnLexeme [c]) = true := by decide
  exact exists_lexes (List.all_eq_true.1 hall c h)

theorem lexes_of_mem_prefixes (h : w ∈ prefixes) : ∃ ts, Lexes w ts := by
  have hall : prefixes.all isOwnLexeme = true := by decide
  exact exists_lexes (List.all_eq_true.1 hall w h)

def Opening.tokens : Opening → List (List Token)
  | .pointer => [[.mark .star]]
  | .slice => [[.mark .openSquare, .mark .closeSquare]]
  | .map => [[.keyword .map, .mark .openSquare]]
  | .array => [[.mark .openSquare]]
  | .channel => [[.mark .arrow, .keyword .chan], [.keyword .chan, .mark .arrow], [.keyword .chan]]
  | .function => [[.keyword .func, .mark .openRound]]
  | .interface => [[.keyword .interface, .mark .openCurly]]
  | .struct => [[.keyword .struct, .mark .openCurly]]

theorem lexes_opening {opening : Opening} (h : (w, opening) ∈ openings) :
    ∃ ts ∈ opening.tokens, Lexes w ts := by
  have hmark {spelling : List Char} {mark : Mark} (hm : (spelling, mark) ∈ Mark.spellings)
      (hd : mark ≠ .dot) :=
    lexes_mark hm hd
  have hblank : Lexes [' '] [] := lexes_blank (.inl rfl)
  have harrow : Lexes ['<', '-'] [.mark .arrow] := hmark (by decide) (by decide)
  have hround : Lexes ['('] [.mark .openRound] := hmark (by decide) (by decide)
  have hsquare : Lexes ['['] [.mark .openSquare] := hmark (by decide) (by decide)
  have hclose : Lexes [']'] [.mark .closeSquare] := hmark (by decide) (by decide)
  have hcurly : Lexes ['\x7b'] [.mark .openCurly] := hmark (by decide) (by decide)
  have hchan : Lexes ['c', 'h', 'a', 'n', ' '] [.keyword .chan] :=
    lexes_keyword .chan (by decide) hblank
  simp only [openings, List.mem_cons, Prod.mk.injEq, List.not_mem_nil, or_false] at h
  obtain ⟨rfl, rfl⟩ | ⟨rfl, rfl⟩ | ⟨rfl, rfl⟩ | ⟨rfl, rfl⟩ | ⟨rfl, rfl⟩ | ⟨rfl, rfl⟩ | ⟨rfl, rfl⟩
      | ⟨rfl, rfl⟩ |
    ⟨rfl, rfl⟩ | ⟨rfl, rfl⟩ := h
  · exact ⟨[.mark .star], by decide, hmark (by decide) (by decide)⟩
  · exact ⟨_, by decide, hsquare.append hclose⟩
  · exact ⟨_, by decide, lexes_keyword .map (by decide) hsquare⟩
  · exact ⟨_, by decide, hsquare⟩
  · exact ⟨_, by decide, harrow.append hchan⟩
  · exact ⟨_, by decide, lexes_keyword .chan (by decide) (harrow.append hblank)⟩
  · exact ⟨_, by decide, hchan⟩
  · exact ⟨_, by decide, lexes_keyword .func (by decide) hround⟩
  · exact ⟨_, by decide, lexes_keyword .interface (by decide) hcurly⟩
  · exact ⟨_, by decide, lexes_keyword .struct (by decide) hcurly⟩

/-! ## Names, lengths and tags -/

theorem token?_of_identifier (h : identifier.rest? s = some rest) :
    ∃ word, isIdentifierChars word = true ∧ token? s = some (.word word, rest) := by
  rw [rest?_identifier] at h
  split at h
  · next hi =>
    cases h
    have hl : s.head?.any Text.isLetter = true := by
      cases s with
      | nil => cases hi
      | cons c s =>
        by_cases hn : Text.isNameChar c = true
        · rw [List.takeWhile_cons_of_pos hn] at hi
          simp only [isIdentifierChars, Bool.and_eq_true] at hi
          exact hi.1.1
        · rw [List.takeWhile_cons_of_neg hn] at hi
          cases hi
    have ht := token?_of_isLetter hl
    rw [Token.ofWord_of_isIdentifierChars hi] at ht
    exact ⟨_, hi, ht⟩
  · cases h

theorem identifier_precedes (h : identifier.rest? s = some rest) :
    Precedes tokens? words s rest := by
  obtain ⟨word, hw, ht⟩ := token?_of_identifier h
  refine (precedes_of_token? ht).mono ?_
  rintro _ rfl
  exact ⟨word, hw, rfl⟩

theorem dot_precedes (h : identifier.rest? s = some rest) :
    Precedes tokens? {[.mark .dot]} ('.' :: s) s := by
  refine precedes_of_token? (token?_dot fun hs => ?_)
  -- No identifier begins with a dot, so the two do not run together.
  obtain ⟨more, rfl⟩ : ∃ more, s = '.' :: more := List.head?_eq_some_iff.1 hs
  have hn : identifier.rest? ('.' :: more) = none := rest?_identifier _
  rw [h] at hn
  cases hn

theorem typeName_precedes (h : typeName.rest? s = some rest) : Precedes tokens? names s rest := by
  rw [typeName, Taker.rest?_extendedBy] at h
  obtain ⟨mid, hmid, hr⟩ := Option.bind_eq_some_iff.1 h
  cases hp : (past? '.').rest? mid with
  | none =>
    rw [hp] at hr
    cases hr
    exact (identifier_precedes hmid).mono fun _ hw => .inl hw
  | some after =>
    rw [hp] at hr
    obtain rfl := rest?_past?_eq_some.1 hp
    have hdot := (identifier_precedes hmid).trans (dot_precedes hr)
    exact (hdot.trans (identifier_precedes hr)).mono fun _ hw => .inr hw

theorem closeSquare_precedes : Precedes tokens? {[.mark .closeSquare]} (']' :: rest) rest := by
  have hmark : ([']'], Mark.closeSquare) ∈ Mark.spellings := by decide
  exact precedes_of_lexes (lexes_mark hmark (by decide))

theorem arrayLength_precedes (h : (arrayLength.andThen (past? ']')).rest? s = some rest) :
    Precedes tokens? ((numbers + names) * {[.mark .closeSquare]}) s rest := by
  rw [Taker.rest?_andThen] at h
  obtain ⟨mid, hmid, hr⟩ := Option.bind_eq_some_iff.1 h
  obtain rfl := rest?_past?_eq_some.1 hr
  refine Precedes.trans ?_ closeSquare_precedes
  cases s with
  | nil => cases hmid
  | cons c s =>
    rw [rest?_arrayLength_cons] at hmid
    split at hmid
    · next hc =>
      have hs : s.takeWhile Char.isDigit ++ ']' :: rest = s := by
        rw [← Option.some.inj hmid, List.takeWhile_append_dropWhile]
      have hdigits : ∀ d ∈ s.takeWhile Char.isDigit, Text.isNameChar d = true := fun d hd =>
        isNameChar_of_isDigit (List.all_eq_true.1 List.all_takeWhile d hd)
      -- The scanner goes on over letters, too; the bracket behind the digits stops both.
      have hdrop : s.dropWhile Text.isNameChar = ']' :: rest := by
        rw [← hs, List.dropWhile_append_of_pos hdigits, List.dropWhile_cons_of_neg (by decide)]
      have ht :
          token? (c :: s) = some (.number (c :: s.takeWhile Text.isNameChar), ']' :: rest) := by
        rw [token?, if_neg (by simp [isLetter_of_isDigit hc]), if_pos hc, hdrop]
      refine (precedes_of_token? ht).mono ?_
      rintro _ rfl
      exact .inl ⟨_, rfl⟩
    · exact (typeName_precedes hmid).mono fun _ hw => .inr hw

theorem exists_closed? (h : afterQuote false s = some rest) :
    ∃ body, closed? s = some (body, rest) := by
  fun_induction closed? s with
  | case1 => cases h
  | case2 s =>
    have hq : afterQuote false ('"' :: s) = some s := rfl
    rw [hq] at h
    cases h
    exact ⟨_, rfl⟩
  | case3 => cases h
  | case4 => cases h
  | case5 d s hq hn ih =>
    obtain ⟨body, hb⟩ := ih h
    exact ⟨_, by rw [hb]; rfl⟩
  | case6 c s hq hn hb ih =>
    rw [afterQuote, if_neg Bool.false_ne_true, if_neg hb, if_neg hq, if_neg hn] at h
    obtain ⟨body, hb⟩ := ih h
    exact ⟨_, by rw [hb]; rfl⟩

theorem tag_precedes (h : tagRest? s = some rest) : Precedes tokens? (1 + literals) s rest := by
  have hliteral {token : Token} (ht : token? (skipSpaces s) = some (token, rest))
      (hl : [token] ∈ literals) :
      Precedes tokens? (1 + literals) s rest := by
    have hp := (precedes_skipSpaces s).trans (precedes_of_token? ht)
    rw [one_mul] at hp
    refine hp.mono ?_
    rintro _ rfl
    exact .inr hl
  rw [tagRest?_eq] at h
  cases hr : (past? '\x60').rest? (skipSpaces s) with
  | some inner =>
    rw [hr, Option.elim_some, rest?_rawTag, rest?_past?_eq_some] at h
    refine hliteral ?_ (.inl ⟨inner.takeWhile (· ≠ '\x60'), rfl⟩)
    rw [rest?_past?_eq_some.1 hr, token?, if_neg (by decide), if_neg (by decide), if_pos rfl, h]
  | none =>
    rw [hr, Option.elim_none] at h
    cases hq : (past? '"').rest? (skipSpaces s) with
    | some inner =>
      rw [hq, Option.elim_some, rest?_interpretedTag] at h
      obtain ⟨body, hb⟩ := exists_closed? h
      refine hliteral ?_ (.inr ⟨'"' :: body, rfl⟩)
      rw [rest?_past?_eq_some.1 hq, token?, if_neg (by decide), if_neg (by decide),
        if_neg (by decide), if_pos rfl, hb]
      rfl
    | none =>
      rw [hq] at h
      cases h
      exact Precedes.refl.mono fun _ hw => .inl hw

def tokens : View Token where
  see := tokens?
  blanks := 1
  sign c := lexed [c]
  optional word := 1 + lexed word
  identifiers := words
  typeNames := names
  lengths := (numbers + names) * {[.mark .closeSquare]}
  tags := literals
  opened := lexed
  skipSpaces := precedes_skipSpaces
  past? _ hc _ := precedes_lexed (lexes_of_mem_signs hc)
  strip word hw s := by
    obtain h | h := strip_cases word s
    · rw [h]
      exact Precedes.refl.mono fun _ hw => .inl hw
    · have hp : Precedes tokens? (lexed word) (word ++ (strip word s).1) (strip word s).1 :=
        precedes_lexed (lexes_of_mem_prefixes hw)
      rw [← h] at hp
      exact hp.mono fun _ hw => .inr hw
  identifier _ _ h := identifier_precedes h
  typeName _ _ h := typeName_precedes h
  arrayLength _ _ h := arrayLength_precedes h
  tag _ _ h := tag_precedes h
  opening _ _ h _ := by
    obtain ⟨ts, -, ht⟩ := lexes_opening h
    exact precedes_lexed ⟨ts, ht⟩

theorem tokens_blanks : tokens.blanks = 1 := rfl

theorem tokens_optional (word : List Char) : tokens.optional word = 1 + lexed word := rfl

end SlogHelpers.Source.TypeText
