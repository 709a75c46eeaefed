import SlogHelpers.Source.TypeText

/-!
The readers of types seen as functions from a text to what they leave of it: one equation for each
reader, in which the proofs that rests are shorter have gone.
-/
namespace SlogHelpers.Source.TypeText

def Taker.rest? (t : Taker) (s : List Char) : Option (List Char) := (t s).map Subtype.val

theorem length_rest?_lt {t : Taker} {s rest : List Char} (h : t.rest? s = some rest) :
    rest.length < s.length := by
  obtain ⟨r, -, rfl⟩ := Option.map_eq_some_iff.1 h
  exact r.2

theorem length_skipSpaces_rest?_lt {t : Taker} {s rest : List Char} (h : t.rest? s = some rest) :
    (skipSpaces rest).length < s.length :=
  Nat.lt_of_le_of_lt (length_skipSpaces_le rest) (length_rest?_lt h)

variable (t u v : Taker) (s : List Char) (c : Char)

theorem rest?_past?_nil : (past? c).rest? [] = none := rfl

theorem rest?_past?_cons (d : Char) :
    (past? c).rest? (d :: s) = if d = c then some s else none := by
  by_cases h : d = c <;> simp [Taker.rest?, past?, h]

theorem rest?_past?_eq_some {c : Char} {s rest : List Char} :
    (past? c).rest? s = some rest ↔ s = c :: rest := by
  cases s with
  | nil => simp [rest?_past?_nil]
  | cons d s =>
    rw [rest?_past?_cons]
    by_cases h : d = c <;> simp [h]

namespace Taker

theorem rest?_andThen : (t.andThen u).rest? s = (t.rest? s).bind u.rest? := by
  simp only [rest?, andThen]
  cases t s with
  | none => rfl
  | some r =>
    obtain ⟨r, hr⟩ := r
    cases h : u r with
    | none => simp [rest?, h]
    | some r' => simp [rest?, h]

theorem rest?_orElse : (t.orElse u).rest? s = (t.rest? s).or (u.rest? s) := by
  simp only [rest?, orElse]
  cases t s <;> simp

theorem rest?_headed :
    (headed t u v).rest? s = (t.rest? s).elim (v.rest? s) u.rest? := by
  simp only [rest?, headed]
  cases t s with
  | none => rfl
  | some r =>
    obtain ⟨r, hr⟩ := r
    cases h : u r with
    | none => simp [rest?, h]
    | some r' => simp [rest?, h]

theorem rest?_extendedBy :
    (t.extendedBy c u).rest? s =
      (t.rest? s).bind fun rest => ((past? c).rest? rest).elim (some rest) u.rest? := by
  simp only [rest?, extendedBy]
  cases t s with
  | none => rfl
  | some r =>
    obtain ⟨r, hr⟩ := r
    cases h : past? c r with
    | none => simp [h]
    | some a =>
      obtain ⟨a, ha⟩ := a
      cases h' : u a with
      | none => simp [rest?, h, h']
      | some r' => simp [rest?, h, h']

theorem rest?_spaced : t.spaced.rest? s = t.rest? (skipSpaces s) := by
  simp only [rest?, spaced, pastSpaces]
  cases t (skipSpaces s) with
  | none => rfl
  | some r => rfl

theorem rest?_marked (word : List Char) : (t.marked word).rest? s = t.rest? (strip word s).1 := by
  simp only [rest?, marked]
  cases t (strip word s).1 with
  | none => rfl
  | some r => rfl

end Taker

theorem rest?_itemsThen (separator close : Char) :
    (itemsThen t separator close).rest? s =
      ((past? close).rest? s).or ((t.rest? s).bind fun rest =>
        ((past? close).rest? (skipSpaces rest)).or
          (((past? separator).rest? (skipSpaces rest)).bind fun after =>
            (itemsThen t separator close).rest? (skipSpaces after))) := by
  rw [Taker.rest?, itemsThen]
  simp only [Taker.rest?, pastSpaces]
  cases past? close s with
  | some r => simp
  | none =>
    cases t s with
    | none => simp
    | some r =>
      obtain ⟨r, hr⟩ := r
      cases hc : past? close (skipSpaces r) with
      | some a => simp [hc]
      | none =>
        cases hs : past? separator (skipSpaces r) with
        | none => simp [hc, hs]
        | some a =>
          obtain ⟨a, ha⟩ := a
          cases hm : itemsThen t separator close (skipSpaces a) with
          | none => simp [hc, hs, hm]
          | some b => simp [hc, hs, hm]

theorem rest?_identifier :
    identifier.rest? s =
      if isIdentifierChars (s.takeWhile Text.isNameChar) then some (s.dropWhile Text.isNameChar)
      else none := by
  simp only [Taker.rest?, identifier]
  split <;> simp

theorem rest?_arrayLength_cons :
    arrayLength.rest? (c :: s) =
      if c.isDigit then some (s.dropWhile Char.isDigit) else typeName.rest? (c :: s) := by
  simp only [Taker.rest?, arrayLength]
  split <;> simp

theorem rest?_typeArguments :
    (typeArguments t).rest? s = (t.rest? s).bind fun rest =>
      ((past? ']').rest? rest).or (((past? ',').rest? rest).bind fun after =>
        (typeArguments t).rest? (strip [' '] after).1) := by
  rw [Taker.rest?, typeArguments]
  simp only [Taker.rest?]
  cases t s with
  | none => simp
  | some r =>
    obtain ⟨r, hr⟩ := r
    cases hc : past? ']' r with
    | some a => simp [hc]
    | none =>
      cases hs : past? ',' r with
      | none => simp [hc, hs]
      | some a =>
        obtain ⟨a, ha⟩ := a
        cases hm : typeArguments t (strip [' '] a).1 with
        | none => simp [hc, hs, hm]
        | some b => simp [hc, hs, hm]

/-- What the arguments after the first leave of the text behind it. -/
def argumentsRest? (t : Taker) (s : List Char) : Option (List Char) :=
  ((past? ']').rest? s).or
    (((past? ',').rest? s).bind fun after => (typeArguments t).rest? (strip [' '] after).1)

theorem rest?_typeArguments_bind :
    (typeArguments t).rest? s = (t.rest? s).bind (argumentsRest? t) :=
  rest?_typeArguments t s

theorem rest?_signature :
    (signature t).rest? s = ((parameters t).rest? s).bind fun rest =>
      ((past? ' ').rest? rest).elim (some rest) fun after =>
        ((past? '(').rest? after).elim (some ((t.rest? after).getD rest)) (parameters t).rest? := by
  simp only [Taker.rest?, signature]
  cases parameters t s with
  | none => simp
  | some r =>
    obtain ⟨r, hr⟩ := r
    cases hb : past? ' ' r with
    | none => simp [hb]
    | some a =>
      obtain ⟨a, ha⟩ := a
      cases ho : past? '(' a with
      | some i =>
        obtain ⟨i, hi⟩ := i
        cases hp : parameters t i with
        | none => simp [hb, ho, hp, Taker.rest?]
        | some r' => simp [hb, ho, hp, Taker.rest?]
      | none =>
        cases ht : t a with
        | none => simp [hb, ho, ht]
        | some r' => simp [hb, ho, ht]

theorem rest?_union :
    (union t).rest? s = ((unionTerm t).rest? s).bind fun rest =>
      ((past? '|').rest? (skipSpaces rest)).elim (some rest) fun after =>
        (union t).rest? (skipSpaces after) := by
  rw [Taker.rest?, union]
  simp only [Taker.rest?, pastSpaces]
  cases unionTerm t s with
  | none => simp
  | some r =>
    obtain ⟨r, hr⟩ := r
    cases hb : past? '|' (skipSpaces r) with
    | none => simp [hb]
    | some a =>
      obtain ⟨a, ha⟩ := a
      cases hu : union t (skipSpaces a) with
      | none => simp [hb, hu]
      | some b => simp [hb, hu]

theorem rest?_fieldNames :
    fieldNames.rest? s = (identifier.rest? s).bind fun rest =>
      ((past? ',').rest? rest).elim (some rest) fun after =>
        fieldNames.rest? (skipSpaces after) := by
  rw [Taker.rest?, fieldNames]
  simp only [Taker.rest?, pastSpaces]
  cases identifier s with
  | none => simp
  | some r =>
    obtain ⟨r, hr⟩ := r
    cases hb : past? ',' r with
    | none => simp [hb]
    | some a =>
      obtain ⟨a, ha⟩ := a
      cases hu : fieldNames (skipSpaces a) with
      | none => simp [hb, hu]
      | some b => simp [hb, hu]

theorem rest?_interpretedTag : interpretedTag.rest? s = afterQuote false s := by
  simp only [Taker.rest?, interpretedTag]
  split <;> simp [*]

theorem rest?_rawTag : rawTag.rest? s = (past? '\x60').rest? (s.dropWhile (· ≠ '\x60')) := by
  simp only [Taker.rest?, rawTag]
  cases past? '\x60' (s.dropWhile (· ≠ '\x60')) with
  | none => rfl
  | some r => rfl

def tagRest? (s : List Char) : Option (List Char) := (tag s).map Subtype.val

theorem tagRest?_eq :
    tagRest? s = ((past? '\x60').rest? (skipSpaces s)).elim
      (((past? '"').rest? (skipSpaces s)).elim (some s) interpretedTag.rest?) rawTag.rest? := by
  simp only [tagRest?, tag, Taker.rest?, pastSpaces]
  cases past? '\x60' (skipSpaces s) with
  | some i =>
    obtain ⟨i, hi⟩ := i
    cases ht : rawTag i with
    | none => simp [ht, Taker.rest?]
    | some r => simp [ht, Taker.rest?]
  | none =>
    cases past? '"' (skipSpaces s) with
    | none => rfl
    | some i =>
      obtain ⟨i, hi⟩ := i
      cases ht : interpretedTag i with
      | none => simp [ht, Taker.rest?]
      | some r => simp [ht, Taker.rest?]

theorem rest?_field :
    (field t).rest? s = (((namedField t).rest? s).or (t.rest? s)).bind tagRest? := by
  rw [← Taker.rest?_orElse]
  simp only [Taker.rest?, field]
  cases (namedField t).orElse t s with
  | none => simp
  | some r =>
    obtain ⟨r, hr⟩ := r
    cases h : tag r with
    | none => simp [tagRest?, h]
    | some r' => simp [tagRest?, h]

theorem rest?_take_succ (levels : Nat) :
    (take (levels + 1)).rest? s = (opening? s).elim ((named (take levels)).rest? s)
      fun (opening, inner) => (opening.take (take levels)).rest? inner.1 := by
  simp only [Taker.rest?, take]
  cases opening? s with
  | none => simp
  | some p =>
    obtain ⟨opening, inner, hi⟩ := p
    cases h : opening.take (take levels) inner with
    | none => simp [h]
    | some r => simp [h]

/-- An opening that is found begins the text. -/
theorem opening?_eq_some {s : List Char} {opening : Opening}
    {inner : { rest : List Char // rest.length ≤ s.length }}
    (h : opening? s = some (opening, inner)) :
    ∃ word, (word, opening) ∈ openings ∧ s = word ++ inner.1 := by
  obtain ⟨⟨word, o⟩, hm, ho⟩ := List.exists_of_findSome?_eq_some h
  obtain ⟨rest, hr, he⟩ := Option.map_eq_some_iff.1 ho
  obtain ⟨rfl, rfl⟩ := Prod.mk.inj he
  rw [strip?] at hr
  split at hr
  · next hp =>
    obtain ⟨tail, rfl⟩ := List.isPrefixOf_iff_prefix.1 hp
    cases hr
    exact ⟨word, hm, by simp⟩
  · cases hr

/-- What stripping a word leaves of a text: the text itself, or what follows the word in it. -/
theorem strip_cases (word s : List Char) : (strip word s).1 = s ∨ s = word ++ (strip word s).1 := by
  rw [strip, strip?]
  split
  · next hp =>
    obtain ⟨tail, rfl⟩ := List.isPrefixOf_iff_prefix.1 hp
    exact .inr (by simp)
  · exact .inl rfl

theorem rest?_of_isTypeText {type : String} (h : isTypeText type = true) :
    (take maxLevels).rest? type.toList = some [] := by
  obtain ⟨rest, hr, he⟩ := (Option.any_eq_true _ _).1 h
  rw [Taker.rest?, hr, Option.map_some, List.isEmpty_iff.1 he]

theorem isTypeText_of_rest? {type : String} (h : (take maxLevels).rest? type.toList = some []) :
    isTypeText type = true := by
  obtain ⟨rest, hr, hnil⟩ := Option.map_eq_some_iff.1 h
  rw [isTypeText, hr, Option.any_some, hnil]
  rfl

end SlogHelpers.Source.TypeText
