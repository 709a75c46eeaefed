import SlogHelpers.Proofs.Source.Identifier
import SlogHelpers.Proofs.Source.Reading
import SlogHelpers.Proofs.Source.Yields

/-!
A type stays within its own brackets. Each reader of types takes words off a text that move a
reading from the brackets that are open in front of it to those that are open behind it; a whole
type leaves them as they were. So its text can close nothing that was opened before it.
-/
namespace SlogHelpers.Source.TypeText
open Reading

variable {t : Taker} {a : List Bracket} {b : Bracket}

/-! ## Words without nesting -/

theorem blanks_le_moves : blanks ≤ moves a a := by
  intro word h
  refine moves_of_plain (List.all_eq_true.2 fun c hc => ?_)
  obtain rfl | rfl := h c hc
  · decide
  · decide

theorem isPlain_of_isDigit {c : Char} (h : c.isDigit = true) : isPlain c = true := by
  rw [isPlain, isNameChar_of_isDigit h, Bool.true_or]

theorem numerals_le_moves : numerals ≤ moves a a := by
  intro word h
  exact moves_of_plain (List.all_eq_true.2 fun c hc => isPlain_of_isDigit (h.2 c hc))

theorem identifiers_le_moves : identifiers ≤ moves a a := by
  intro word h
  refine moves_of_plain (List.all_eq_true.2 fun c hc => ?_)
  have hn : Text.isNameChar c = true := isNameChar_of_mem h hc
  simp [isPlain, hn]

theorem plain_le_moves {word : List Char} (h : word.all isPlain = true) :
    ({word} : Language Char) ≤ moves a a := by
  intro w hw
  obtain rfl := hw
  exact moves_of_plain h

theorem typeNames_le_moves : typeNames ≤ moves a a :=
  add_le_moves identifiers_le_moves
    (mul_le_moves
      (mul_le_moves identifiers_le_moves (plain_le_moves (by decide))) identifiers_le_moves)

theorem optional_le_moves {word : List Char} (h : word.all isPlain = true) :
    optional word ≤ moves a a :=
  add_le_moves one_le_moves (plain_le_moves h)

theorem open_le_moves (b : Bracket) : ({[b.opening]} : Language Char) ≤ moves a (b :: a) := by
  intro w hw
  obtain rfl := hw
  exact opening_moves b

theorem close_le_moves (b : Bracket) : ({[b.closing]} : Language Char) ≤ moves (b :: a) a := by
  intro w hw
  obtain rfl := hw
  exact closing_moves b

theorem separator_le_moves {c : Char} (h : c ∈ separators) :
    ({[c]} : Language Char) ≤ moves (b :: a) (b :: a) := by
  intro w hw
  obtain rfl := hw
  exact separator_moves h

theorem passes_interpreted {word : List Char} {escaped : Bool} (opened : List Bracket)
    (h : afterQuote escaped word = some []) :
    Passes ⟨opened, .interpreted escaped⟩ word ∧
      after ⟨opened, .interpreted escaped⟩ word = ⟨opened, .plain⟩ := by
  have hm (e : Bool) : Mode.interpreted e ≠ .plain := by simp
  induction word generalizing escaped with
  | nil => cases h
  | cons c word ih =>
    rw [afterQuote] at h
    split at h
    · next he =>
      subst he
      obtain ⟨hp, ha⟩ := ih h
      exact ⟨⟨fun he => absurd he (hm _), hp⟩, ha⟩
    · next he =>
      obtain rfl : escaped = false := by simpa using he
      split at h
      · next hc =>
        subst hc
        obtain ⟨hp, ha⟩ := ih h
        exact ⟨⟨fun he => absurd he (hm _), hp⟩, ha⟩
      · next hc =>
        split at h
        · next hq =>
          subst hq
          cases h
          exact ⟨⟨fun he => absurd he (hm _), trivial⟩, rfl⟩
        · next hq =>
          split at h
          · cases h
          · obtain ⟨hp, ha⟩ := ih h
            have hn : next ⟨opened, .interpreted false⟩ c = ⟨opened, .interpreted false⟩ := by
              simp [next, hc, hq]
            refine ⟨⟨fun he => absurd he (hm _), ?_⟩, ?_⟩
            · rw [hn]
              exact hp
            · rw [after, List.foldl_cons, hn]
              exact ha

theorem tags_le_moves : tags ≤ moves (b :: a) (b :: a) := by
  have hraw : ({['\x60']} : Language Char) * rawTags ≤ moves (b :: a) (b :: a) := by
    intro word h
    obtain ⟨q, rfl, w, ⟨body, hbody, rfl⟩, rfl⟩ := h
    obtain ⟨hp, ha⟩ := passes_raw (b :: a) hbody
    exact ⟨⟨fun _ => tagQuote_allowed (by decide), hp⟩, ha⟩
  have hint : ({['"']} : Language Char) * interpretedTags ≤ moves (b :: a) (b :: a) := by
    intro word h
    obtain ⟨q, rfl, w, hw, rfl⟩ := h
    obtain ⟨hp, ha⟩ := passes_interpreted (b :: a) hw
    exact ⟨⟨fun _ => tagQuote_allowed (by decide), hp⟩, ha⟩
  rw [tags, mul_assoc, mul_assoc]
  exact add_le_moves (mul_le_moves blanks_le_moves hraw) (mul_le_moves blanks_le_moves hint)

/-! ## Readers around a reader of types -/

section Nested

/-- The reader leaves the brackets as they are. -/
def Stays (t : Taker) : Prop := t.Yields (moves [] [])

/-- The reader closes a bracket that is open in front of it, and nothing else. -/
def Closes (t : Taker) (b : Bracket) : Prop := t.Yields (moves [b] [])

theorem Stays.moves (h : Stays t) (a : List Bracket) : t.Yields (moves a a) :=
  h.mono (moves_le_moves_append a)

theorem typeArguments_closes (ht : Stays t) : Closes (typeArguments t) .square :=
  (ht.moves [.square]).typeArguments
    (mul_le_moves le_rfl (close_le_moves .square))
    (mul_le_moves (mul_le_moves (mul_le_moves le_rfl (separator_le_moves (by decide)))
      (optional_le_moves (by decide))) le_rfl)

theorem parameter_stays (ht : Stays t) : Stays (parameter t) := by
  have hv : optional ['.', '.', '.'] * moves [] [] ≤ moves [] [] :=
    mul_le_moves (optional_le_moves (by decide)) le_rfl
  refine (Taker.Yields.parameter ht).mono (add_le_moves ?_ hv)
  exact mul_le_moves (mul_le_moves identifiers_le_moves (plain_le_moves (by decide)))
    (mul_le_moves blanks_le_moves hv)

/-- A list of items up to its closing bracket closes that bracket. -/
theorem itemsThen_closes {item : Taker} {separator : Char} (hs : separator ∈ separators)
    (hi : item.Yields (moves [b] [b])) : Closes (itemsThen item separator b.closing) b :=
  hi.itemsThen (close_le_moves b)
    (mul_le_moves (mul_le_moves le_rfl blanks_le_moves) (close_le_moves b))
    (mul_le_moves (mul_le_moves (mul_le_moves (mul_le_moves le_rfl blanks_le_moves)
      (separator_le_moves hs)) blanks_le_moves) le_rfl)

theorem spaced_closes (ht : Closes t b) : Closes t.spaced b :=
  (Taker.Yields.spaced ht).mono (mul_le_moves blanks_le_moves le_rfl)

theorem parameters_closes (ht : Stays t) : Closes (parameters t) .round :=
  spaced_closes (itemsThen_closes (b := .round) (by decide) ((parameter_stays ht).moves [.round]))

theorem signature_closes (ht : Stays t) : Closes (signature t) .round := by
  have hp := parameters_closes ht
  have hspace : ({[' ']} : Language Char) ≤ moves [] [] := plain_le_moves (by decide)
  exact Taker.Yields.signature hp ht le_rfl
    (mul_le_moves (mul_le_moves (mul_le_moves le_rfl hspace) (open_le_moves .round)) le_rfl)
    (mul_le_moves (mul_le_moves le_rfl hspace) le_rfl)

theorem body_closes {element : Taker} (he : element.Yields (moves [.curly] [.curly])) :
    Closes (body element) .curly :=
  spaced_closes (itemsThen_closes (b := .curly) (by decide) he)

theorem union_stays (ht : Stays t) : Stays (union t) := by
  have hterm : (unionTerm t).Yields (moves [] []) :=
    (Taker.Yields.marked (by decide) ht).mono (mul_le_moves (optional_le_moves (by decide)) le_rfl)
  exact hterm.union le_rfl
    (mul_le_moves (mul_le_moves (mul_le_moves (mul_le_moves le_rfl blanks_le_moves)
      (plain_le_moves (by decide))) blanks_le_moves) le_rfl)

theorem interfaceElement_stays (ht : Stays t) : Stays (interfaceElement t) :=
  (Taker.Yields.interfaceElement (signature_closes ht) (union_stays ht)).mono
    (add_le_moves
      (mul_le_moves (mul_le_moves identifiers_le_moves (open_le_moves .round)) le_rfl) le_rfl)

theorem field_moves (ht : Stays t) : (field t).Yields (moves [.curly] [.curly]) := by
  have hnames : fieldNames.Yields (moves [.curly] [.curly]) :=
    Taker.Yields.fieldNames identifiers_le_moves
      (mul_le_moves
        (mul_le_moves (mul_le_moves identifiers_le_moves (separator_le_moves (by decide)))
        blanks_le_moves) le_rfl)
  have hnamed := hnames.namedField (ht.moves [.curly])
  refine (hnamed.field (ht.moves [.curly])).mono (mul_le_moves (add_le_moves ?_ le_rfl) ?_)
  · exact mul_le_moves (mul_le_moves le_rfl (plain_le_moves (by decide)))
      (mul_le_moves blanks_le_moves le_rfl)
  · exact add_le_moves one_le_moves tags_le_moves

theorem named_stays (ht : Stays t) : Stays (named t) :=
  (typeArguments_closes ht).named.mono (add_le_moves typeNames_le_moves
    (mul_le_moves (mul_le_moves typeNames_le_moves (open_le_moves .square)) le_rfl))

/-- The brackets that an opening leaves open. -/
def Opening.brackets : Opening → List Bracket
  | .pointer => []
  | .slice => []
  | .map => [.square]
  | .array => [.square]
  | .channel => []
  | .function => [.round]
  | .interface => [.curly]
  | .struct => [.curly]

theorem bracket_word_moves (word : List Char) (b : Bracket) (h : word.all isPlain = true) :
    word ++ [b.opening] ∈ moves [] [b] :=
  mul_le_moves (plain_le_moves h) (open_le_moves b) (Language.append_mem_mul rfl rfl)

theorem opening_word_moves {word : List Char} {opening : Opening} (h : (word, opening) ∈ openings) :
    word ∈ moves [] opening.brackets := by
  simp only [openings, List.mem_cons, Prod.mk.injEq, List.not_mem_nil, or_false] at h
  obtain ⟨rfl, rfl⟩ | ⟨rfl, rfl⟩ | ⟨rfl, rfl⟩ | ⟨rfl, rfl⟩ | ⟨rfl, rfl⟩ | ⟨rfl, rfl⟩ | ⟨rfl, rfl⟩ |
    ⟨rfl, rfl⟩ | ⟨rfl, rfl⟩ | ⟨rfl, rfl⟩ := h
  · exact moves_of_plain (by decide)
  · exact mul_le_moves (open_le_moves .square) (close_le_moves .square)
      (Language.append_mem_mul (char_mem '[') (char_mem ']'))
  · exact bracket_word_moves ['m', 'a', 'p'] .square (by decide)
  · exact bracket_word_moves [] .square (by decide)
  · exact moves_of_plain (by decide)
  · exact moves_of_plain (by decide)
  · exact moves_of_plain (by decide)
  · exact bracket_word_moves ['f', 'u', 'n', 'c'] .round (by decide)
  · exact bracket_word_moves ['i', 'n', 't', 'e', 'r', 'f', 'a', 'c', 'e'] .curly (by decide)
  · exact bracket_word_moves ['s', 't', 'r', 'u', 'c', 't'] .curly (by decide)

/-- What follows an opening closes the bracket that the opening leaves open. -/
theorem opening_take_yields (ht : Stays t) (opening : Opening) :
    (opening.take t).Yields (moves opening.brackets []) := by
  cases opening with
  | pointer => exact ht
  | slice => exact ht
  | map =>
    exact (((ht.moves [.square]).andThen Taker.Yields.past?).andThen ht).mono
      (mul_le_moves (mul_le_moves le_rfl (close_le_moves .square)) le_rfl)
  | array =>
    exact ((Taker.Yields.arrayLength.andThen Taker.Yields.past?).andThen ht).mono
      (mul_le_moves (mul_le_moves (add_le_moves numerals_le_moves typeNames_le_moves)
        (close_le_moves .square)) le_rfl)
  | channel => exact ht
  | function => exact signature_closes ht
  | interface => exact body_closes ((interfaceElement_stays ht).moves [.curly])
  | struct => exact body_closes (field_moves ht)

end Nested

theorem take_stays (levels : Nat) : Stays (take levels) := by
  refine Taker.Yields.take (fun t ht word opening h => ?_) (fun t ht => named_stays ht) levels
  refine ⟨_, opening_take_yields ht opening, mul_le_moves ?_ le_rfl⟩
  intro w hw
  obtain rfl := hw
  exact opening_word_moves h

end TypeText

theorem moves_of_isTypeText {type : String} (h : isTypeText type = true) :
    type.toList ∈ Reading.moves [] [] := by
  obtain ⟨word, hw, hs⟩ := TypeText.take_stays _ _ _ (TypeText.rest?_of_isTypeText h)
  rw [hs, List.append_nil]
  exact hw

/-- A type is contained in its own brackets. -/
structure Contained (type : List Char) : Prop where
  /-- Outside of tags there is nothing but what may stand there: letters, digits and few other
  characters, closing brackets that match the innermost open one, separators and tags inside of
  brackets only. -/
  outside : ∀ before c behind, type = before ++ c :: behind →
    (Reading.after {} before).mode = .plain → (Reading.after {} before).Allows c
  /-- At the end all brackets and tags are closed. -/
  ends : Reading.after {} type = {}

/-- The text of a type is contained in its own brackets. Wherever it is written, the brackets that
are open around it are so at each place in it and behind it: it can end neither a parameter list nor
a function. -/
theorem contained_of_isTypeText {type : String} (h : isTypeText type = true) :
    Contained type.toList ∧ ∀ outer,
      (∀ before, before <+: type.toList → ∃ opened mode,
        Reading.after ⟨outer, .plain⟩ before = ⟨opened ++ outer, mode⟩) ∧
      Reading.after ⟨outer, .plain⟩ type.toList = ⟨outer, .plain⟩ := by
  obtain ⟨hp, ha⟩ := moves_of_isTypeText h
  refine ⟨⟨?_, ha⟩, fun outer => ⟨?_, ?_⟩⟩
  · intro before c behind hs hm
    rw [hs] at hp
    exact hp.allows hm
  · intro before hb
    obtain ⟨behind, hs⟩ := hb
    rw [← hs, Reading.passes_append] at hp
    exact ⟨_, _, (hp.1.within outer).2⟩
  · have hw := (hp.within outer).2
    rw [ha] at hw
    exact hw

/-- A closing brace in a tag closes nothing. -/
theorem contained_of_isTypeText_brace_in_tag :
    isTypeText "struct\x7bA, B int \x60\x7d\x60\x7d" = true ∧
      Contained "struct\x7bA, B int \x60\x7d\x60\x7d".toList ∧ ∀ outer,
        (∀ before, before <+: "struct\x7bA, B int \x60\x7d\x60\x7d".toList → ∃ opened mode,
          Reading.after ⟨outer, .plain⟩ before = ⟨opened ++ outer, mode⟩) ∧
        Reading.after ⟨outer, .plain⟩ "struct\x7bA, B int \x60\x7d\x60\x7d".toList =
          ⟨outer, .plain⟩ := by
  have h : isTypeText "struct\x7bA, B int \x60\x7d\x60\x7d" = true := by decide +kernel
  exact ⟨h, contained_of_isTypeText h⟩

end SlogHelpers.Source
