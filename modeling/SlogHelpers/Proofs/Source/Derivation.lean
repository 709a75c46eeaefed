import Mathlib.Computability.MyhillNerode
import SlogHelpers.Proofs.Source.Grammar
import SlogHelpers.Proofs.Source.TokenView

/-!
A text that passes for a type is scanned as the tokens of one, in Go's grammar with four liberties:
parameter lists that mix entries with and without names, embedded fields of any type, numbers that
are no literals and strings with escapes that there are not.
-/
namespace SlogHelpers.Source.TypeText

/-! ## Languages of tokens -/

section Languages

variable {k l m : Language Token} {x : Token}

theorem mul_le (h : ∀ u ∈ l, ∀ w ∈ m, u ++ w ∈ k) : l * m ≤ k := by
  rintro _ ⟨u, hu, w, hw, rfl⟩
  exact h u hu w hw

theorem word_mul_le {word : List Token} (h : ∀ w ∈ m, word ++ w ∈ k) : {word} * m ≤ k := by
  refine mul_le fun u hu w hw => ?_
  obtain rfl : u = word := hu
  exact h w hw

theorem append_le (h : ∀ u ∈ l, u ++ [x] ∈ k) : l * {[x]} ≤ k := by
  refine mul_le fun u hu w hw => ?_
  obtain rfl : w = [x] := hw
  exact h u hu

theorem exists_separated {ts : List Token} (h : ts ∈ l * {[x]} * m) :
    ∃ u ∈ l, ∃ w ∈ m, ts = u ++ x :: w := by
  rw [mul_assoc] at h
  obtain ⟨u, hu, _, ⟨_, rfl, w, hw, rfl⟩, rfl⟩ := h
  exact ⟨u, hu, w, hw, rfl⟩

theorem separated_le (h : ∀ u ∈ l, ∀ w ∈ m, u ++ x :: w ∈ k) : l * {[x]} * m ≤ k := by
  intro ts hts
  obtain ⟨u, hu, w, hw, rfl⟩ := exists_separated hts
  exact h u hu w hw

theorem le_leftQuotient (h : {[x]} * m ≤ l) : m ≤ l.leftQuotient [x] :=
  fun _ hw => h (Language.append_mem_mul rfl hw)

end Languages

/-- The words of a phrase, with all liberties. -/
def phrase (p : Phrase) : Language Token := {ts | Derives (fun _ => True) p ts}

def types : Language Token := {ts | ∃ kind, ts ∈ phrase (.type kind)}

def variadics : Language Token := {ts | ∃ kind, ts ∈ phrase (.variadic kind)}

def entries : Language Token := {ts | ∃ entry, ts ∈ phrase (.entry entry)}

def entryLists : Language Token := {ts | ∃ entries, ts ∈ phrase (.entries entries)}

def signatureTails : Language Token := (phrase .signature).leftQuotient [.mark .openRound]

/-! ## What the constructs are put together from -/

theorem exists_typeName {ts : List Token} (h : ts ∈ names) :
    ∃ kind, ts ∈ phrase (.typeName kind) := by
  obtain ⟨name, hn, rfl⟩ | h := h
  · exact ⟨_, .identifier hn⟩
  · obtain ⟨_, ⟨_, ⟨package, hp, rfl⟩, _, rfl, rfl⟩, _, ⟨name, hn, rfl⟩, rfl⟩ := h
    exact ⟨_, .qualified hp hn⟩

theorem arguments_le : types ≤ phrase .arguments := fun _ ⟨_, h⟩ => .lastArgument h

theorem arguments_mul_le : types * {[.mark .comma]} * phrase .arguments ≤ phrase .arguments :=
  separated_le fun _ ⟨_, h⟩ _ hs => .moreArguments h hs

theorem named_le : names + names * {[.mark .openSquare]} *
    (phrase .arguments * {[.mark .closeSquare]}) ≤ types := by
  refine add_le (fun ts h => ?_) ?_
  · obtain ⟨kind, h⟩ := exists_typeName h
    exact ⟨kind, .named h⟩
  · rw [← mul_assoc]
    refine append_le fun _ h => ?_
    rw [mul_assoc] at h
    obtain ⟨ts, hn, _, ⟨_, rfl, us, ha, rfl⟩, rfl⟩ := h
    obtain ⟨kind, hn⟩ := exists_typeName hn
    exact ⟨_, .instantiated hn ha⟩

theorem variadics_le : (1 + {[.mark .dots]}) * types ≤ variadics := by
  rw [add_mul, one_mul]
  exact add_le (fun _ ⟨kind, h⟩ => ⟨kind, .single h⟩) (word_mul_le fun _ ⟨_, h⟩ => ⟨_, .variadic h⟩)

theorem entries_le : words * variadics + variadics ≤ entries := by
  refine add_le (mul_le fun u hu w hw => ?_) fun ts h => ?_
  · obtain ⟨name, hn, rfl⟩ := hu
    obtain ⟨kind, hw⟩ := hw
    exact ⟨_, .namedEntry hn hw⟩
  · obtain ⟨kind, h⟩ := h
    exact ⟨_, .unnamedEntry h⟩

theorem entryLists_le : 1 ≤ entryLists ∧ entries ≤ entryLists ∧
    entries * {[.mark .comma]} * entryLists ≤ entryLists := by
  refine ⟨?_, ?_, ?_⟩
  · rintro _ rfl
    exact ⟨_, .noEntry⟩
  · rintro _ ⟨_, h⟩
    exact ⟨_, .lastEntry h⟩
  · exact separated_le fun _ ⟨_, h⟩ _ ⟨_, hs⟩ => ⟨_, .moreEntries h hs⟩

theorem parameters_le :
    {[.mark .openRound]} * (entryLists * {[.mark .closeRound]}) ≤ phrase .parameters := by
  refine word_mul_le fun _ h => ?_
  obtain ⟨ts, ⟨entries, h⟩, _, rfl, rfl⟩ := h
  exact .parameters h (.inr trivial)

theorem signatureTails_le :
    entryLists * {[.mark .closeRound]} ≤ signatureTails ∧
      entryLists * {[.mark .closeRound]} * {[.mark .openRound]} *
        (entryLists * {[.mark .closeRound]}) ≤
        signatureTails ∧
      entryLists * {[.mark .closeRound]} * types ≤ signatureTails := by
  refine ⟨le_leftQuotient fun ts h => ?_, le_leftQuotient ?_, le_leftQuotient ?_⟩
  · exact .noResult (parameters_le h)
  · rw [mul_assoc _ {[Token.mark .openRound]}, ← mul_assoc]
    exact (mul_le_mul' parameters_le parameters_le).trans (mul_le fun _ h _ hr => .results h hr)
  · rw [← mul_assoc]
    exact (mul_le_mul' parameters_le le_rfl).trans (mul_le fun _ h _ ⟨_, hr⟩ => .result h hr)

theorem terms_le : (1 + {[.mark .tilde]}) * types ≤ phrase .term := by
  rw [add_mul, one_mul]
  exact add_le (fun _ ⟨_, h⟩ => .typeTerm h) (word_mul_le fun _ ⟨_, h⟩ => .underlyingTerm h)

theorem union_le : phrase .term ≤ phrase .union ∧
    phrase .term * {[.mark .bar]} * phrase .union ≤ phrase .union :=
  ⟨fun _ h => .lastTerm h, separated_le fun _ h _ hs => .moreTerms h hs⟩

theorem elements_le :
    words * {[.mark .openRound]} * signatureTails + phrase .union ≤ phrase .element := by
  refine add_le (separated_le fun u hu w hw => ?_) fun _ h => .typeElement h
  obtain ⟨name, hn, rfl⟩ := hu
  exact .method hn hw

theorem body_le (item : Phrase) : 1 ≤ phrase (.body item) ∧ phrase item ≤ phrase (.body item) ∧
    phrase item * {[.mark .semicolon]} * phrase (.body item) ≤ phrase (.body item) := by
  refine ⟨?_, fun _ h => .lastItem h, separated_le fun _ h _ hs => .moreItems h hs⟩
  rintro _ rfl
  exact .noItem

theorem fieldNames_le : words ≤ phrase .names ∧
    words * {[.mark .comma]} * phrase .names ≤ phrase .names := by
  refine ⟨?_, separated_le fun u hu w hw => ?_⟩
  · rintro _ ⟨name, hn, rfl⟩
    exact .lastName hn
  · obtain ⟨name, hn, rfl⟩ := hu
    exact .moreNames hn hw

theorem tags_le : 1 + literals ≤ phrase .tag := by
  refine add_le ?_ ?_
  · rintro _ rfl
    exact .noTag
  · rintro _ (⟨body, rfl⟩ | ⟨literal, rfl⟩)
    · exact .rawTag
    · exact .interpretedTag (.inr trivial)

theorem fields_le : (phrase .names * types + types) * (1 + literals) ≤ phrase .field := by
  refine (mul_le_mul' le_rfl tags_le).trans ?_
  rw [add_mul]
  refine add_le (mul_le fun _ h _ ht => ?_)
    (mul_le fun _ ⟨_, h⟩ _ ht => .embeddedField h (.inr trivial) ht)
  obtain ⟨_, hn, _, ⟨_, hu⟩, rfl⟩ := h
  exact .namedField hn hu ht

theorem lengths_le : numbers + names ≤ phrase .length := by
  refine add_le ?_ fun _ h => ?_
  · rintro _ ⟨digits, rfl⟩
    exact .literalLength (.inr trivial)
  · obtain ⟨_, h⟩ := exists_typeName h
    exact .constantLength h

/-! ## Readers around a reader of types -/

section Readers

variable {t : Taker}

theorem lexed_mark {c : Char} {mark : Mark} (h : ([c], mark) ∈ Mark.spellings) (hd : mark ≠ .dot) :
    lexed [c] = {[.mark mark]} := lexed_eq (lexes_mark h hd)

theorem sign_space : tokens.sign ' ' = 1 := lexed_eq (lexes_blank (.inl rfl))

theorem optional_space : tokens.optional [' '] = 1 := by
  have hb : lexed [' '] = 1 := lexed_eq (lexes_blank (.inl rfl))
  rw [tokens_optional, hb]
  exact add_idem 1

theorem past?_shows (c : Char) (mark : Mark) (h : ([c], mark) ∈ Mark.spellings) (hd : mark ≠ .dot) :
    (past? c).Shows tokens {[.mark mark]} := by
  intro s rest hs
  rw [rest?_past?_eq_some.1 hs]
  exact precedes_of_lexes (lexes_mark h hd)

theorem named_shows (ht : t.Shows tokens types) : (named t).Shows tokens types := by
  have hopen : tokens.sign '[' = {[.mark .openSquare]} := lexed_mark (by decide) (by decide)
  have hclose : tokens.sign ']' = {[.mark .closeSquare]} := lexed_mark (by decide) (by decide)
  have hcomma : tokens.sign ',' = {[.mark .comma]} := lexed_mark (by decide) (by decide)
  have harguments :
      (typeArguments t).Shows tokens (phrase .arguments * {[.mark .closeSquare]}) := by
    refine ht.typeArguments ?_ ?_
    · rw [hclose]
      exact mul_le_mul' arguments_le le_rfl
    · rw [hcomma, optional_space, mul_one, ← mul_assoc]
      exact mul_le_mul' arguments_mul_le le_rfl
  refine harguments.named.mono ?_
  rw [hopen]
  exact named_le

theorem parameter_shows (ht : t.Shows tokens types) : (parameter t).Shows tokens entries := by
  have hdots : lexed ['.', '.', '.'] = {[.mark .dots]} :=
    lexed_eq (lexes_mark (by decide) (by decide))
  have hoptional : tokens.optional ['.', '.', '.'] * types ≤ variadics := by
    rw [tokens_optional, hdots]
    exact variadics_le
  refine ht.parameter.mono (le_trans ?_ entries_le)
  rw [sign_space, mul_one]
  exact add_le_add (mul_le_mul' le_rfl ((one_mul _).trans_le hoptional)) hoptional

/-- Items with marks between them and one behind them all. -/
theorem itemsThen_shows {item : Taker} {separator close : Char} {l m : Language Token} {x y : Token}
    (hi : item.Shows tokens l) (hs : (past? separator).Shows tokens {[x]})
    (hc : (past? close).Shows tokens {[y]})
    (hnone : 1 ≤ m) (hlast : l ≤ m) (hmore : l * {[x]} * m ≤ m) :
    (itemsThen item separator close).spaced.Shows tokens (m * {[y]}) := by
  have hitems : (itemsThen item separator close).Shows tokens (m * {[y]}) := by
    refine hi.itemsThen hc hs ?_ ?_ ?_
    · exact (one_mul _).symm.trans_le (mul_le_mul' hnone le_rfl)
    · rw [tokens_blanks, mul_one]
      exact mul_le_mul' hlast le_rfl
    · rw [tokens_blanks, mul_one, mul_one, ← mul_assoc]
      exact mul_le_mul' hmore le_rfl
  exact hitems.spaced.mono (one_mul _).le

theorem parameters_shows (ht : t.Shows tokens types) :
    (parameters t).Shows tokens (entryLists * {[.mark .closeRound]}) := by
  obtain ⟨hnone, hlast, hmore⟩ := entryLists_le
  exact itemsThen_shows (parameter_shows ht) (past?_shows ',' .comma (by decide) (by decide))
    (past?_shows ')' .closeRound (by decide) (by decide)) hnone hlast hmore

theorem signature_shows (ht : t.Shows tokens types) :
    (signature t).Shows tokens signatureTails := by
  have hopen : tokens.sign '(' = {[.mark .openRound]} := lexed_mark (by decide) (by decide)
  obtain ⟨hnone, hmany, hone⟩ := signatureTails_le
  refine (parameters_shows ht).signature ht hnone ?_ ?_
  · rw [sign_space, mul_one, hopen]
    exact hmany
  · rw [sign_space, mul_one]
    exact hone

theorem union_shows (ht : t.Shows tokens types) : (union t).Shows tokens (phrase .union) := by
  have htilde : lexed ['~'] = {[.mark .tilde]} := lexed_mark (by decide) (by decide)
  have hbar : tokens.sign '|' = {[.mark .bar]} := lexed_mark (by decide) (by decide)
  have hterm : (unionTerm t).Shows tokens (phrase .term) := by
    have hmarked : (unionTerm t).Shows tokens (tokens.optional ['~'] * types) :=
      ht.marked (by decide)
    rw [tokens_optional, htilde] at hmarked
    exact hmarked.mono terms_le
  refine hterm.union union_le.1 ?_
  rw [tokens_blanks, mul_one, mul_one, hbar]
  exact union_le.2

theorem interfaceElement_shows (ht : t.Shows tokens types) :
    (interfaceElement t).Shows tokens (phrase .element) := by
  have hopen : tokens.sign '(' = {[.mark .openRound]} := lexed_mark (by decide) (by decide)
  refine ((signature_shows ht).interfaceElement (union_shows ht)).mono ?_
  rw [hopen]
  exact elements_le

theorem body_shows {element : Taker} {item : Phrase} (he : element.Shows tokens (phrase item)) :
    (body element).Shows tokens (phrase (.body item) * {[.mark .closeCurly]}) := by
  obtain ⟨hnone, hlast, hmore⟩ := body_le item
  exact itemsThen_shows he (past?_shows ';' .semicolon (by decide) (by decide))
    (past?_shows '\x7d' .closeCurly (by decide) (by decide)) hnone hlast hmore

theorem field_shows (ht : t.Shows tokens types) : (field t).Shows tokens (phrase .field) := by
  have hcomma : tokens.sign ',' = {[.mark .comma]} := lexed_mark (by decide) (by decide)
  have hnames : fieldNames.Shows tokens (phrase .names) := by
    refine Taker.Shows.fieldNames fieldNames_le.1 ?_
    rw [hcomma, tokens_blanks, mul_one]
    exact fieldNames_le.2
  refine ((hnames.namedField ht).field ht).mono (le_trans (le_of_eq ?_) fields_le)
  rw [sign_space, tokens_blanks, mul_one, one_mul]
  rfl

/-! ## Types -/

def Opening.remainder : Opening → Language Token
  | .pointer => types
  | .slice => types
  | .map => types * {[.mark .closeSquare]} * types
  | .array => (numbers + names) * {[.mark .closeSquare]} * types
  | .channel => types
  | .function => signatureTails
  | .interface => phrase (.body .element) * {[.mark .closeCurly]}
  | .struct => phrase (.body .field) * {[.mark .closeCurly]}

theorem opening_take_shows (ht : t.Shows tokens types) (opening : Opening) :
    (opening.take t).Shows tokens opening.remainder := by
  cases opening with
  | pointer => exact ht
  | slice => exact ht
  | map => exact (ht.andThen (past?_shows ']' .closeSquare (by decide) (by decide))).andThen ht
  | array => exact Taker.Shows.andThen tokens.arrayLength ht
  | channel => exact ht
  | function => exact signature_shows ht
  | interface => exact body_shows (interfaceElement_shows ht)
  | struct => exact body_shows (field_shows ht)

theorem mem_tokens_mul_le {opening : Opening} {ts : List Token} (h : ts ∈ opening.tokens) :
    {ts} * opening.remainder ≤ types := by
  refine word_mul_le fun us hus => ?_
  cases opening with
  | pointer =>
    obtain rfl := List.mem_singleton.1 h
    obtain ⟨kind, hus⟩ := hus
    exact ⟨_, .pointer hus⟩
  | slice =>
    obtain rfl := List.mem_singleton.1 h
    obtain ⟨kind, hus⟩ := hus
    exact ⟨_, .slice hus⟩
  | map =>
    obtain rfl := List.mem_singleton.1 h
    obtain ⟨us, ⟨_, hk⟩, ws, ⟨_, hv⟩, rfl⟩ := exists_separated hus
    exact ⟨_, .map hk hv⟩
  | array =>
    obtain rfl := List.mem_singleton.1 h
    obtain ⟨us, hl, ws, ⟨_, hv⟩, rfl⟩ := exists_separated hus
    exact ⟨_, .array (lengths_le hl) hv⟩
  | channel =>
    obtain ⟨kind, hus⟩ := hus
    obtain rfl | rfl | rfl : ts = _ ∨ ts = _ ∨ ts = _ := by
      simpa only [Opening.tokens, List.mem_cons, List.not_mem_nil, or_false] using h
    · exact ⟨_, .receiveChannel hus⟩
    · exact ⟨_, .sendChannel hus⟩
    · exact ⟨_, .channel hus⟩
  | function =>
    obtain rfl := List.mem_singleton.1 h
    exact ⟨_, .function hus⟩
  | interface =>
    obtain rfl := List.mem_singleton.1 h
    obtain ⟨us, hus, _, rfl, rfl⟩ := hus
    exact ⟨_, .interface hus⟩
  | struct =>
    obtain rfl := List.mem_singleton.1 h
    obtain ⟨us, hus, _, rfl, rfl⟩ := hus
    exact ⟨_, .struct hus⟩

theorem take_shows (levels : Nat) : (take levels).Shows tokens types := by
  refine Taker.Shows.take (fun t ht word opening h => ?_) (fun _ ht => named_shows ht) levels
  obtain ⟨ts, hts, hw⟩ := lexes_opening h
  refine ⟨opening.remainder, opening_take_shows ht opening, ?_⟩
  rw [show tokens.opened word = {ts} from lexed_eq hw]
  exact mem_tokens_mul_le hts

end Readers

end TypeText

/-- A text that passes for a type is one by Go's grammar, with those liberties that its tokens give
occasion to. -/
theorem isType_of_isTypeText {type : String} (h : isTypeText type = true) :
    ∃ ts, tokens? type.toList = some ts ∧
      ∀ allowed : Liberty → Prop, (∀ liberty : Liberty, liberty.Occasion ts → allowed liberty) →
        IsType allowed type := by
  have hempty : TypeText.tokens.see [] = some [] := tokens?_nil
  -- Nothing is left behind the type, and nothing is scanned as no tokens.
  obtain ⟨ts, ⟨kind, hk⟩, hs⟩ :=
    TypeText.take_shows _ _ _ (TypeText.rest?_of_isTypeText h) [] hempty
  rw [List.append_nil] at hs
  exact ⟨ts, hs, fun allowed ha => ⟨ts, kind, hs, hk.narrow ⟨ha, nofun⟩⟩⟩

theorem isType_of_isTypeText_without_occasion :
    isTypeText "map[string][4]Pair[int, error]" = true ∧
      IsGoType "map[string][4]Pair[int, error]" := by
  have h : isTypeText "map[string][4]Pair[int, error]" = true := by decide +kernel
  obtain ⟨ts, hts, hall⟩ := isType_of_isTypeText h
  have ht :
      tokens? "map[string][4]Pair[int, error]".toList = some [.keyword .map, .mark .openSquare,
      .word ['s', 't', 'r', 'i', 'n', 'g'], .mark .closeSquare, .mark .openSquare, .number ['4'],
      .mark .closeSquare, .word ['P', 'a', 'i', 'r'], .mark .openSquare,
      .word ['i', 'n', 't'], .mark .comma, .word ['e', 'r', 'r', 'o', 'r'],
      .mark .closeSquare] := by decide +kernel
  obtain rfl := Option.some.inj (ht.symm.trans hts)
  refine ⟨h, hall _ fun liberty ho => ?_⟩
  cases liberty with
  | mixedEntries => exact absurd ho.1 (by decide)
  | embeddedType =>
    have hm : Token.keyword .struct ∈ _ := ho
    simp at hm
  | number =>
    obtain ⟨digits, hd, hn⟩ := ho
    obtain rfl : digits = ['4'] := by simpa using hd
    revert hn
    decide
  | string =>
    obtain ⟨literal, hl, -⟩ := ho
    simp at hl

/-- A text that passes for a type by each of the liberties. -/
def taking : Liberty → String
  | .mixedEntries => "func(a int, string)"
  | .embeddedType => "struct\x7b[]int\x7d"
  | .number => "[08]int"
  | .string => "struct\x7bA \"\\q\"\x7d"

theorem isTypeText_taking (liberty : Liberty) : isTypeText (taking liberty) = true := by
  cases liberty <;> decide +kernel

theorem not_isType_taking {allowed : Liberty → Prop} {liberty : Liberty} (hl : ¬ allowed liberty) :
    ¬ IsType allowed (taking liberty) := by
  rintro ⟨ts, kind, hts, h⟩
  cases liberty with
  | mixedEntries =>
    have ht : tokens? (taking .mixedEntries).toList =
        some ([.keyword .func, .mark .openRound, .word ['a'],
        .word ['i', 'n', 't'], .mark .comma, .word ['s', 't', 'r', 'i', 'n', 'g'],
        .mark .closeRound]) := by decide +kernel
    obtain rfl := Option.some.inj (ht.symm.trans hts)
    obtain ⟨es, hes, hu⟩ :=
      Derives.entries_of_signature [.word ['a'], .word ['i', 'n', 't'], .mark .comma,
      .word ['s', 't', 'r', 'i', 'n', 'g']] h.begins_cons (by decide)
    obtain rfl := Derives.entries_of_mixed hes
    exact hu.elim (by decide) hl
  | embeddedType =>
    have ht : tokens? (taking .embeddedType).toList =
        some [.keyword .struct, .mark .openCurly, .mark .openSquare,
        .mark .closeSquare, .word ['i', 'n', 't'], .mark .closeCurly] := by decide +kernel
    obtain rfl := Option.some.inj (ht.symm.trans hts)
    obtain ⟨us, hus, hb⟩ := h.begins_cons
    obtain rfl : us = [.mark .openSquare, .mark .closeSquare, .word ['i', 'n', 't']] := by
      simpa [List.cons_eq_append_iff] using hus
    exact hl (Derives.embedded_slice (Derives.field_of_body hb (by simp) (by decide)))
  | number =>
    have ht : tokens? (taking .number).toList =
        some [.mark .openSquare, .number ['0', '8'], .mark .closeSquare,
        .word ['i', 'n', 't']] := by decide +kernel
    obtain rfl := Option.some.inj (ht.symm.trans hts)
    obtain ⟨-, ⟨_, hs⟩ | ⟨us, ws, hs, hlength⟩⟩ := h.begins_cons
    · cases hs
    · obtain ⟨rfl, -⟩ : us = [.number ['0', '8']] ∧ ws = [.word ['i', 'n', 't']] := by
        simpa [List.cons_eq_append_iff] using hs
      exact (Derives.literal_of_length hlength).elim (by decide) hl
  | string =>
    have ht :
        tokens? (taking .string).toList = some [.keyword .struct, .mark .openCurly, .word ['A'],
        .interpreted ['"', '\\', 'q', '"'], .mark .closeCurly] := by decide +kernel
    obtain rfl := Option.some.inj (ht.symm.trans hts)
    obtain ⟨us, hus, hb⟩ := h.begins_cons
    obtain rfl : us = [.word ['A'], .interpreted ['"', '\\', 'q', '"']] := by
      simpa [List.cons_eq_append_iff] using hus
    have htag := Derives.tag_of_word (Derives.field_of_body hb (by simp) (by decide))
    exact (Derives.literal_of_tag htag).elim (by decide +kernel) hl

theorem not_isGoType_mixedEntries :
    isTypeText "func(a int, string)" = true ∧ ¬ IsGoType "func(a int, string)" := by
  have hn : ¬ IsType (fun _ => False) (taking .mixedEntries) := not_isType_taking id
  exact ⟨isTypeText_taking .mixedEntries, hn⟩

end SlogHelpers.Source
