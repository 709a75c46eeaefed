import Mathlib.Computability.Language
import Mathlib.Order.CompletePartialOrder
import SlogHelpers.Proofs.Source.Rest

/-!
What the readers of types take off a text, in any view of texts: as characters, say, or as tokens.
Once it is known how a view sees the smallest constructs, the language of each larger one is put
together as its reader is. For the loops it is enough that the language is closed under one more
round.
-/
namespace SlogHelpers.Source.TypeText

variable {α : Type}

/-- However the rest is seen, the text is seen as a word of the language in front of that. -/
def Precedes (see : List Char → Option (List α)) (l : Language α) (s rest : List Char) : Prop :=
  ∀ more, see rest = some more → ∃ word ∈ l, see s = some (word ++ more)

namespace Precedes

variable {see : List Char → Option (List α)} {l m : Language α} {s mid rest : List Char}

theorem refl : Precedes see 1 s s := fun _ h => ⟨[], rfl, h⟩

theorem mono (h : Precedes see l s rest) (hl : l ≤ m) : Precedes see m s rest := by
  intro more hmore
  obtain ⟨word, hw, hs⟩ := h more hmore
  exact ⟨word, hl hw, hs⟩

theorem trans (h : Precedes see l s mid) (h' : Precedes see m mid rest) :
    Precedes see (l * m) s rest := by
  intro more hmore
  obtain ⟨b, hb, hmid⟩ := h' more hmore
  obtain ⟨a, ha, hs⟩ := h _ hmid
  exact ⟨a ++ b, Language.append_mem_mul ha hb, by rw [hs, List.append_assoc]⟩

end Precedes

def signs : List Char := [' ', '(', '[', ']', ',', '|']

/-- Words that readers of types pass over where they find them. -/
def prefixes : List (List Char) := [[' '], ['.', '.', '.'], ['~']]

/-- A view of texts that sees each of the smallest constructs as a word of some language. -/
structure View (α : Type) where
  see : List Char → Option (List α)
  blanks : Language α
  sign : Char → Language α
  optional : List Char → Language α
  identifiers : Language α
  typeNames : Language α
  /-- Lengths of arrays, with the bracket behind them. -/
  lengths : Language α
  tags : Language α
  opened : List Char → Language α
  skipSpaces : ∀ s, Precedes see blanks s (skipSpaces s)
  past? : ∀ c ∈ signs, ∀ rest, Precedes see (sign c) (c :: rest) rest
  strip : ∀ word ∈ prefixes, ∀ s, Precedes see (optional word) s (strip word s).1
  identifier : ∀ s rest, identifier.rest? s = some rest → Precedes see identifiers s rest
  typeName : ∀ s rest, typeName.rest? s = some rest → Precedes see typeNames s rest
  arrayLength : ∀ s rest, (arrayLength.andThen (TypeText.past? ']')).rest? s = some rest →
    Precedes see lengths s rest
  tag : ∀ s rest, tagRest? s = some rest → Precedes see (1 + tags) s rest
  opening : ∀ word opening, (word, opening) ∈ openings →
    ∀ rest, Precedes see (opened word) (word ++ rest) rest

/-- The view sees what the reader takes off a text as a word of the language. -/
def Taker.Shows (V : View α) (t : Taker) (l : Language α) : Prop :=
  ∀ s rest, t.rest? s = some rest → Precedes V.see l s rest

namespace Taker.Shows

variable {V : View α} {t u v : Taker} {l m n : Language α} {c : Char}

theorem mono (ht : t.Shows V l) (hl : l ≤ m) : t.Shows V m := fun s rest h => (ht s rest h).mono hl

theorem past? (hc : c ∈ signs) : (past? c).Shows V (V.sign c) := by
  intro s rest h
  rw [rest?_past?_eq_some.1 h]
  exact V.past? c hc rest

theorem andThen (ht : t.Shows V l) (hu : u.Shows V m) : (t.andThen u).Shows V (l * m) := by
  intro s rest h
  rw [rest?_andThen] at h
  obtain ⟨mid, hmid, hrest⟩ := Option.bind_eq_some_iff.1 h
  exact (ht s mid hmid).trans (hu mid rest hrest)

theorem orElse (ht : t.Shows V l) (hu : u.Shows V m) : (t.orElse u).Shows V (l + m) := by
  intro s rest h
  rw [rest?_orElse, Option.or_eq_some_iff] at h
  obtain h | ⟨-, h⟩ := h
  · exact (ht s rest h).mono fun _ hw => Or.inl hw
  · exact (hu s rest h).mono fun _ hw => Or.inr hw

theorem headed (ht : t.Shows V l) (hu : u.Shows V m) (hv : v.Shows V n) :
    (headed t u v).Shows V (l * m + n) := by
  intro s rest h
  rw [rest?_headed] at h
  cases hh : t.rest? s with
  | none =>
    rw [hh] at h
    exact (hv s rest h).mono fun _ hw => Or.inr hw
  | some mid =>
    rw [hh] at h
    exact ((ht s mid hh).trans (hu mid rest h)).mono fun _ hw => Or.inl hw

theorem extendedBy (ht : t.Shows V l) (hc : (TypeText.past? c).Shows V n) (hu : u.Shows V m) :
    (t.extendedBy c u).Shows V (l + l * n * m) := by
  intro s rest h
  rw [rest?_extendedBy] at h
  obtain ⟨mid, hmid, hr⟩ := Option.bind_eq_some_iff.1 h
  cases hp : (TypeText.past? c).rest? mid with
  | none =>
    rw [hp] at hr
    cases hr
    exact (ht s _ hmid).mono fun _ hw => Or.inl hw
  | some after =>
    rw [hp] at hr
    exact (((ht s mid hmid).trans (hc mid after hp)).trans (hu after rest hr)).mono
      fun _ hw => Or.inr hw

theorem spaced (ht : t.Shows V l) : t.spaced.Shows V (V.blanks * l) := by
  intro s rest h
  rw [rest?_spaced] at h
  exact (V.skipSpaces s).trans (ht _ rest h)

theorem marked {word : List Char} (hw : word ∈ prefixes) (ht : t.Shows V l) :
    (t.marked word).Shows V (V.optional word * l) := by
  intro s rest h
  rw [rest?_marked] at h
  exact (V.strip word hw s).trans (ht _ rest h)

/-- A list of items is a word of any language that holds the closing character, alone and after an
item, and with each of its words the word that has one more item in front. -/
theorem itemsThen {separator close : Char} {k j : Language α} (ht : t.Shows V l)
    (hc : (TypeText.past? close).Shows V j) (hs : (TypeText.past? separator).Shows V k)
    (hclose : j ≤ m) (hlast : l * V.blanks * j ≤ m) (hmore : l * V.blanks * k * V.blanks * m ≤ m) :
    (itemsThen t separator close).Shows V m := by
  -- Each further item stands in a shorter text.
  intro s
  induction hn : s.length using Nat.strong_induction_on generalizing s with
  | h size ih =>
    intro rest h
    rw [rest?_itemsThen, Option.or_eq_some_iff] at h
    obtain h | ⟨-, h⟩ := h
    · exact (hc s rest h).mono hclose
    · obtain ⟨mid, hmid, hr⟩ := Option.bind_eq_some_iff.1 h
      have hitem := (ht s mid hmid).trans (V.skipSpaces mid)
      rw [Option.or_eq_some_iff] at hr
      obtain hr | ⟨-, hr⟩ := hr
      · exact (hitem.trans (hc _ rest hr)).mono hlast
      · obtain ⟨after, hafter, hr⟩ := Option.bind_eq_some_iff.1 hr
        have hlt : (TypeText.skipSpaces after).length < size :=
          hn ▸ Nat.lt_trans (length_skipSpaces_rest?_lt hafter) (length_skipSpaces_rest?_lt hmid)
        have hitems := ih _ hlt _ rfl rest hr
        exact (((hitem.trans (hs _ after hafter)).trans (V.skipSpaces after)).trans hitems).mono
          hmore

theorem typeArguments (ht : t.Shows V l) (hlast : l * V.sign ']' ≤ m)
    (hmore : l * V.sign ',' * V.optional [' '] * m ≤ m) : (typeArguments t).Shows V m := by
  intro s
  induction hn : s.length using Nat.strong_induction_on generalizing s with
  | h size ih =>
    intro rest h
    rw [rest?_typeArguments] at h
    obtain ⟨mid, hmid, hr⟩ := Option.bind_eq_some_iff.1 h
    rw [Option.or_eq_some_iff] at hr
    obtain hr | ⟨-, hr⟩ := hr
    · exact ((ht s mid hmid).trans (past? (by decide) mid rest hr)).mono hlast
    · obtain ⟨after, hafter, hr⟩ := Option.bind_eq_some_iff.1 hr
      have hlt : (TypeText.strip [' '] after).1.length < size := by
        have hmid := length_rest?_lt hmid
        have hafter := length_rest?_lt hafter
        have hle := (TypeText.strip [' '] after).2
        omega
      have harguments := ih _ hlt _ rfl rest hr
      have hcomma := (ht s mid hmid).trans (past? (by decide) mid after hafter)
      exact ((hcomma.trans (V.strip [' '] (by decide) after)).trans harguments).mono hmore

theorem variadic (ht : t.Shows V l) : (variadic t).Shows V (V.optional ['.', '.', '.'] * l) :=
  ht.marked (by decide)

theorem parameter (ht : t.Shows V l) :
    (parameter t).Shows V
      (V.identifiers * V.sign ' ' * (V.blanks * (V.optional ['.', '.', '.'] * l)) +
      V.optional ['.', '.', '.'] * l) := by
  have hname :
      (TypeText.identifier.andThen (TypeText.past? ' ')).Shows V (V.identifiers * V.sign ' ') :=
    andThen V.identifier (past? (by decide))
  exact hname.headed ht.variadic.spaced ht.variadic

theorem signature (hp : (parameters t).Shows V l) (ht : t.Shows V m) (hnone : l ≤ n)
    (hmany : l * V.sign ' ' * V.sign '(' * l ≤ n) (hone : l * V.sign ' ' * m ≤ n) :
    (signature t).Shows V n := by
  intro s rest h
  rw [rest?_signature] at h
  obtain ⟨mid, hmid, hr⟩ := Option.bind_eq_some_iff.1 h
  have hparameters := hp s mid hmid
  cases hsp : (TypeText.past? ' ').rest? mid with
  | none =>
    rw [hsp] at hr
    cases hr
    exact hparameters.mono hnone
  | some after =>
    rw [hsp, Option.elim_some] at hr
    have hspace := hparameters.trans (past? (by decide) mid after hsp)
    cases ho : (TypeText.past? '(').rest? after with
    | some inner =>
      rw [ho] at hr
      have hopen := hspace.trans (past? (by decide) after inner ho)
      exact (hopen.trans (hp inner rest hr)).mono hmany
    | none =>
      rw [ho, Option.elim_none] at hr
      cases hc : t.rest? after with
      | none =>
        -- The space is left to whatever follows the signature.
        rw [hc] at hr
        cases hr
        exact hparameters.mono hnone
      | some rest' =>
        rw [hc] at hr
        cases hr
        exact (hspace.trans (ht after _ hc)).mono hone

theorem union (ht : (unionTerm t).Shows V l) (hlast : l ≤ m)
    (hmore : l * V.blanks * V.sign '|' * V.blanks * m ≤ m) : (union t).Shows V m := by
  intro s
  induction hn : s.length using Nat.strong_induction_on generalizing s with
  | h size ih =>
    intro rest h
    rw [rest?_union] at h
    obtain ⟨mid, hmid, hr⟩ := Option.bind_eq_some_iff.1 h
    cases hb : (TypeText.past? '|').rest? (TypeText.skipSpaces mid) with
    | none =>
      rw [hb] at hr
      cases hr
      exact (ht s _ hmid).mono hlast
    | some after =>
      rw [hb] at hr
      have hlt : (TypeText.skipSpaces after).length < size :=
        hn ▸ Nat.lt_trans (length_skipSpaces_rest?_lt hb) (length_skipSpaces_rest?_lt hmid)
      have hbar := ((ht s mid hmid).trans (V.skipSpaces mid)).trans (past? (by decide) _ after hb)
      exact ((hbar.trans (V.skipSpaces after)).trans (ih _ hlt _ rfl rest hr)).mono hmore

theorem interfaceElement (hs : (TypeText.signature t).Shows V l)
    (hu : (TypeText.union t).Shows V m) :
    (interfaceElement t).Shows V (V.identifiers * V.sign '(' * l + m) := by
  have hname :
      (TypeText.identifier.andThen (TypeText.past? '(')).Shows V (V.identifiers * V.sign '(') :=
    andThen V.identifier (past? (by decide))
  exact hname.headed hs hu

theorem fieldNames (hlast : V.identifiers ≤ m)
    (hmore : V.identifiers * V.sign ',' * V.blanks * m ≤ m) :
    fieldNames.Shows V m := by
  intro s
  induction hn : s.length using Nat.strong_induction_on generalizing s with
  | h size ih =>
    intro rest h
    rw [rest?_fieldNames] at h
    obtain ⟨mid, hmid, hr⟩ := Option.bind_eq_some_iff.1 h
    cases hb : (TypeText.past? ',').rest? mid with
    | none =>
      rw [hb] at hr
      cases hr
      exact (V.identifier s _ hmid).mono hlast
    | some after =>
      rw [hb] at hr
      have hlt : (TypeText.skipSpaces after).length < size :=
        hn ▸ Nat.lt_trans (length_skipSpaces_rest?_lt hb) (length_rest?_lt hmid)
      have hcomma := (V.identifier s mid hmid).trans (past? (by decide) mid after hb)
      exact ((hcomma.trans (V.skipSpaces after)).trans (ih _ hlt _ rfl rest hr)).mono hmore

theorem namedField (hn : TypeText.fieldNames.Shows V l) (ht : t.Shows V m) :
    (namedField t).Shows V (l * V.sign ' ' * (V.blanks * m)) := by
  have hnames : (TypeText.fieldNames.andThen (TypeText.past? ' ')).Shows V (l * V.sign ' ') :=
    hn.andThen (past? (by decide))
  exact hnames.andThen ht.spaced

theorem field (hn : (TypeText.namedField t).Shows V l) (ht : t.Shows V m) :
    (field t).Shows V ((l + m) * (1 + V.tags)) := by
  intro s rest h
  rw [rest?_field, ← rest?_orElse] at h
  obtain ⟨mid, hmid, hr⟩ := Option.bind_eq_some_iff.1 h
  exact (hn.orElse ht s mid hmid).trans (V.tag mid rest hr)

theorem named (ht : (TypeText.typeArguments t).Shows V l) :
    (named t).Shows V (V.typeNames + V.typeNames * V.sign '[' * l) :=
  extendedBy V.typeName (past? (by decide)) ht

/-- Types are words of any language that holds what one level of nesting makes of its words. -/
theorem take (hopen : ∀ t : Taker, t.Shows V l → ∀ word opening, (word, opening) ∈ openings →
      ∃ m, (Opening.take t opening).Shows V m ∧ V.opened word * m ≤ l)
    (hname : ∀ t : Taker, t.Shows V l → (TypeText.named t).Shows V l) (levels : Nat) :
    (take levels).Shows V l := by
  induction levels with
  | zero => intro s rest h; cases h
  | succ levels ih =>
    intro s rest h
    rw [rest?_take_succ] at h
    cases ho : opening? s with
    | none =>
      rw [ho] at h
      exact hname _ ih s rest h
    | some p =>
      obtain ⟨opening, inner⟩ := p
      rw [ho] at h
      obtain ⟨word, hword, hs⟩ := opening?_eq_some ho
      obtain ⟨m, hm, hle⟩ := hopen _ ih word opening hword
      have hinner := (V.opening word opening hword inner.1).trans (hm inner.1 rest h)
      rw [← hs] at hinner
      exact hinner.mono hle

end Taker.Shows

end SlogHelpers.Source.TypeText
