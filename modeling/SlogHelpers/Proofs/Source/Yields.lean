import SlogHelpers.Proofs.Source.View

/-!
What the readers of types take off a text, as languages of characters: the view in which a text is
seen as it is written.
-/
namespace SlogHelpers.Source.TypeText

/-- What the reader takes off a text is a word of the language. -/
def Taker.Yields (t : Taker) (l : Language Char) : Prop :=
  ∀ s rest, t.rest? s = some rest → ∃ word ∈ l, s = word ++ rest

def blanks : Language Char := {word | ∀ c ∈ word, c = ' ' ∨ c = '\t'}

def identifiers : Language Char := {word | isIdentifierChars word = true}

def typeNames : Language Char := identifiers + identifiers * {['.']} * identifiers

def numerals : Language Char := {word | word ≠ [] ∧ ∀ c ∈ word, c.isDigit = true}

def rawTags : Language Char := {word | ∃ body, (∀ c ∈ body, c ≠ '\x60') ∧ word = body ++ ['\x60']}

def interpretedTags : Language Char := {word | afterQuote false word = some []}

def tags : Language Char := blanks * {['\x60']} * rawTags + blanks * {['"']} * interpretedTags

/-- A word that may be missing. -/
def optional (word : List Char) : Language Char := 1 + {word}

variable {t u v : Taker} {l m n k : Language Char} {s rest : List Char} {c : Char}

theorem char_mem (c : Char) : [c] ∈ ({[c]} : Language Char) := rfl

theorem exists_blanks (s : List Char) : ∃ word ∈ blanks, s = word ++ skipSpaces s := by
  refine ⟨s.takeWhile fun c => c == ' ' || c == '\t', ?_, List.takeWhile_append_dropWhile.symm⟩
  intro c hc
  simpa using List.all_eq_true.1 List.all_takeWhile c hc

theorem exists_optional (word s : List Char) : ∃ w ∈ optional word, s = w ++ (strip word s).1 := by
  obtain h | h := strip_cases word s
  · exact ⟨[], .inl rfl, h.symm⟩
  · exact ⟨word, .inr rfl, h⟩

/-- What ends an interpreted tag ends it in front of any rest. -/
theorem exists_of_afterQuote {escaped : Bool} (h : afterQuote escaped s = some rest) :
    ∃ word, afterQuote escaped word = some [] ∧ s = word ++ rest := by
  induction s generalizing escaped with
  | nil => cases h
  | cons c s ih =>
    have more : ∀ e, afterQuote e s = some rest →
        (∀ word, afterQuote e word = some [] → afterQuote escaped (c :: word) = some []) →
        ∃ word, afterQuote escaped word = some [] ∧ c :: s = word ++ rest := by
      intro e he hw
      obtain ⟨word, hword, rfl⟩ := ih he
      exact ⟨c :: word, hw word hword, rfl⟩
    rw [afterQuote] at h
    split at h
    · next he => exact more false h fun word hw => by simp [afterQuote, he, hw]
    · next he =>
      split at h
      · next hc => exact more true h fun word hw => by simp [afterQuote, he, hc, hw]
      · next hc =>
        split at h
        · next hq =>
          cases h
          exact ⟨[c], by simp [afterQuote, he, hq], rfl⟩
        · next hq =>
          split at h
          · cases h
          · next hb => exact more false h fun word hw => by simp [afterQuote, he, hc, hq, hb, hw]

theorem precedes_of_append {word : List Char} (hw : word ∈ l) :
    Precedes some l (word ++ rest) rest := by
  intro more h
  rw [← Option.some.inj h]
  exact ⟨word, hw, rfl⟩

theorem precedes_iff : Precedes some l s rest ↔ ∃ word ∈ l, s = word ++ rest := by
  constructor
  · intro h
    obtain ⟨word, hw, hs⟩ := h rest rfl
    exact ⟨word, hw, Option.some.inj hs⟩
  · rintro ⟨word, hw, rfl⟩
    exact precedes_of_append hw

/-! ## The smallest constructs -/

theorem identifier_yields : identifier.Yields identifiers := by
  intro s rest h
  rw [rest?_identifier] at h
  split at h
  · next hi =>
    cases h
    exact ⟨_, hi, List.takeWhile_append_dropWhile.symm⟩
  · cases h

theorem typeName_yields : typeName.Yields typeNames := by
  intro s rest h
  rw [typeName, Taker.rest?_extendedBy] at h
  obtain ⟨mid, hmid, hr⟩ := Option.bind_eq_some_iff.1 h
  obtain ⟨a, ha, rfl⟩ := identifier_yields s mid hmid
  cases hp : (past? '.').rest? mid with
  | none =>
    rw [hp] at hr
    cases hr
    exact ⟨a, .inl ha, rfl⟩
  | some after =>
    rw [hp] at hr
    obtain rfl := rest?_past?_eq_some.1 hp
    obtain ⟨b, hb, rfl⟩ := identifier_yields after rest hr
    have hab := Language.append_mem_mul (Language.append_mem_mul ha (char_mem '.')) hb
    exact ⟨a ++ ['.'] ++ b, .inr hab, by simp⟩

theorem arrayLength_yields : arrayLength.Yields (numerals + typeNames) := by
  intro s rest h
  cases s with
  | nil => cases h
  | cons c s =>
    rw [rest?_arrayLength_cons] at h
    split at h
    · next hc =>
      cases h
      refine ⟨c :: s.takeWhile Char.isDigit, .inl ⟨List.cons_ne_nil _ _, ?_⟩, ?_⟩
      · exact List.forall_mem_cons.2 ⟨hc, List.all_eq_true.1 List.all_takeWhile⟩
      · rw [List.cons_append, List.takeWhile_append_dropWhile]
    · obtain ⟨word, hw, hs⟩ := typeName_yields _ rest h
      exact ⟨word, .inr hw, hs⟩

theorem rawTag_yields : rawTag.Yields rawTags := by
  intro s rest h
  rw [rest?_rawTag, rest?_past?_eq_some] at h
  refine ⟨s.takeWhile (· ≠ '\x60') ++ ['\x60'], ⟨_, fun c hc => ?_, rfl⟩, ?_⟩
  · simpa using List.all_eq_true.1 List.all_takeWhile c hc
  · rw [List.append_assoc, List.singleton_append, ← h, List.takeWhile_append_dropWhile]

theorem interpretedTag_yields : interpretedTag.Yields interpretedTags := by
  intro s rest h
  rw [rest?_interpretedTag] at h
  exact exists_of_afterQuote h

theorem tag_yields (h : tagRest? s = some rest) : ∃ word ∈ 1 + tags, s = word ++ rest := by
  obtain ⟨b, hb, hs⟩ := exists_blanks s
  rw [tagRest?_eq] at h
  cases hr : (past? '\x60').rest? (skipSpaces s) with
  | some inner =>
    rw [hr] at h
    rw [rest?_past?_eq_some.1 hr] at hs
    obtain ⟨a, ha, rfl⟩ := rawTag_yields inner rest h
    have hw := Language.append_mem_mul (Language.append_mem_mul hb (char_mem '\x60')) ha
    exact ⟨b ++ ['\x60'] ++ a, .inr (.inl hw), by simp [hs]⟩
  | none =>
    rw [hr, Option.elim_none] at h
    cases hq : (past? '"').rest? (skipSpaces s) with
    | some inner =>
      rw [hq] at h
      rw [rest?_past?_eq_some.1 hq] at hs
      obtain ⟨a, ha, rfl⟩ := interpretedTag_yields inner rest h
      have hw := Language.append_mem_mul (Language.append_mem_mul hb (char_mem '"')) ha
      exact ⟨b ++ ['"'] ++ a, .inr (.inr hw), by simp [hs]⟩
    | none =>
      rw [hq] at h
      cases h
      exact ⟨[], .inl rfl, rfl⟩

def chars : View Char where
  see := some
  blanks := blanks
  sign c := {[c]}
  optional := optional
  identifiers := identifiers
  typeNames := typeNames
  lengths := (numerals + typeNames) * {[']']}
  tags := tags
  opened word := {word}
  skipSpaces s := precedes_iff.2 (exists_blanks s)
  past? c _ _ := precedes_of_append (char_mem c)
  strip word _ s := precedes_iff.2 (exists_optional word s)
  identifier s rest h := precedes_iff.2 (identifier_yields s rest h)
  typeName s rest h := precedes_iff.2 (typeName_yields s rest h)
  arrayLength s rest h := by
    rw [Taker.rest?_andThen] at h
    obtain ⟨mid, hmid, hr⟩ := Option.bind_eq_some_iff.1 h
    obtain rfl := rest?_past?_eq_some.1 hr
    exact (precedes_iff.2 (arrayLength_yields s _ hmid)).trans (precedes_of_append (char_mem ']'))
  tag _ _ h := precedes_iff.2 (tag_yields h)
  opening _ _ _ _ := precedes_of_append rfl

theorem yields_iff : t.Yields l ↔ t.Shows chars l :=
  forall_congr' fun _ => forall_congr' fun _ => imp_congr_right fun _ => precedes_iff.symm

/-! ## Readers put together -/

namespace Taker.Yields

theorem mono (ht : t.Yields l) (hl : l ≤ m) : t.Yields m := yields_iff.2 ((yields_iff.1 ht).mono hl)

theorem past? : (past? c).Yields {[c]} := fun _ _ h => ⟨[c], rfl, rest?_past?_eq_some.1 h⟩

theorem andThen (ht : t.Yields l) (hu : u.Yields m) : (t.andThen u).Yields (l * m) :=
  yields_iff.2 ((yields_iff.1 ht).andThen (yields_iff.1 hu))

theorem spaced (ht : t.Yields l) : t.spaced.Yields (blanks * l) :=
  yields_iff.2 (yields_iff.1 ht).spaced

theorem itemsThen {separator close : Char} (ht : t.Yields l) (hclose : {[close]} ≤ m)
    (hlast : l * blanks * {[close]} ≤ m) (hmore : l * blanks * {[separator]} * blanks * m ≤ m) :
    (itemsThen t separator close).Yields m :=
  yields_iff.2
    ((yields_iff.1 ht).itemsThen (yields_iff.1 past?) (yields_iff.1 past?) hclose hlast hmore)

theorem arrayLength : arrayLength.Yields (numerals + typeNames) := arrayLength_yields

theorem typeArguments (ht : t.Yields l) (hlast : l * {[']']} ≤ m)
    (hmore : l * {[',']} * optional [' '] * m ≤ m) : (typeArguments t).Yields m :=
  yields_iff.2 ((yields_iff.1 ht).typeArguments hlast hmore)

theorem marked {word : List Char} (hw : word ∈ prefixes) (ht : t.Yields l) :
    (t.marked word).Yields (optional word * l) :=
  yields_iff.2 ((yields_iff.1 ht).marked hw)

theorem parameter (ht : t.Yields l) :
    (parameter t).Yields (identifiers * {[' ']} * (blanks * (optional ['.', '.', '.'] * l)) +
      optional ['.', '.', '.'] * l) :=
  yields_iff.2 (yields_iff.1 ht).parameter

theorem signature (hp : (parameters t).Yields l) (ht : t.Yields m) (hnone : l ≤ n)
    (hmany : l * {[' ']} * {['(']} * l ≤ n) (hone : l * {[' ']} * m ≤ n) : (signature t).Yields n :=
  yields_iff.2 ((yields_iff.1 hp).signature (yields_iff.1 ht) hnone hmany hone)

theorem union (ht : (unionTerm t).Yields l) (hlast : l ≤ m)
    (hmore : l * blanks * {['|']} * blanks * m ≤ m) : (union t).Yields m :=
  yields_iff.2 ((yields_iff.1 ht).union hlast hmore)

theorem interfaceElement (hs : (TypeText.signature t).Yields l) (hu : (TypeText.union t).Yields m) :
    (interfaceElement t).Yields (identifiers * {['(']} * l + m) :=
  yields_iff.2 ((yields_iff.1 hs).interfaceElement (yields_iff.1 hu))

theorem fieldNames (hlast : identifiers ≤ m) (hmore : identifiers * {[',']} * blanks * m ≤ m) :
    fieldNames.Yields m :=
  yields_iff.2 (Shows.fieldNames hlast hmore)

theorem namedField (hn : TypeText.fieldNames.Yields l) (ht : t.Yields m) :
    (namedField t).Yields (l * {[' ']} * (blanks * m)) :=
  yields_iff.2 ((yields_iff.1 hn).namedField (yields_iff.1 ht))

theorem field (hn : (TypeText.namedField t).Yields l) (ht : t.Yields m) :
    (field t).Yields ((l + m) * (1 + tags)) :=
  yields_iff.2 ((yields_iff.1 hn).field (yields_iff.1 ht))

theorem named (ht : (TypeText.typeArguments t).Yields l) :
    (named t).Yields (typeNames + typeNames * {['[']} * l) :=
  yields_iff.2 (yields_iff.1 ht).named

theorem take (hopen : ∀ t : Taker, t.Yields l → ∀ word opening, (word, opening) ∈ openings →
      ∃ m, (Opening.take t opening).Yields m ∧ {word} * m ≤ l)
    (hname : ∀ t : Taker, t.Yields l → (TypeText.named t).Yields l) (levels : Nat) :
    (take levels).Yields l := by
  refine yields_iff.2 (Shows.take (fun t ht word opening h => ?_) (fun t ht => ?_) levels)
  · obtain ⟨m, hm, hle⟩ := hopen t (yields_iff.2 ht) word opening h
    exact ⟨m, yields_iff.1 hm, hle⟩
  · exact yields_iff.1 (hname t (yields_iff.2 ht))

end Taker.Yields

end SlogHelpers.Source.TypeText
