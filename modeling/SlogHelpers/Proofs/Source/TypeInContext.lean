import SlogHelpers.Proofs.Source.SectionReading
import SlogHelpers.Proofs.Source.TypeEnd

/-!
Types in front of a closing parenthesis. A type that stands alone is taken off a text just as far
when the parenthesis follows it, whatever comes after that. Readers decide by what they see next,
and most of them see the same in front of the parenthesis as at the end of the text; where one goes
on only if it can, it matters that it could not.
-/
namespace SlogHelpers.Source

namespace TypeText

variable {t u v item : Taker} {s rest mid more word : List Char} {c : Char}

/-! ## In front of the parenthesis -/

theorem skipSpaces_append : skipSpaces (s ++ ')' :: more) = skipSpaces s ++ ')' :: more :=
  Lists.dropWhile_append_cons_of_neg (by decide)

theorem isPrefixOf_append_cons (h : c ∉ word) :
    word.isPrefixOf (s ++ c :: more) = word.isPrefixOf s := by
  induction word generalizing s with
  | nil => rfl
  | cons d word ih =>
    obtain ⟨hd, hw⟩ : ¬ c = d ∧ c ∉ word := by simpa using h
    cases s with
    | nil =>
      change (d == c && word.isPrefixOf more) = false
      rw [beq_false_of_ne (Ne.symm hd), Bool.false_and]
    | cons e s =>
      change (d == e && word.isPrefixOf (s ++ c :: more)) = (d == e && word.isPrefixOf s)
      rw [ih hw]

theorem drop_append_of_isPrefixOf (h : word.isPrefixOf s = true) (t : List Char) :
    (s ++ t).drop word.length = s.drop word.length ++ t :=
  List.drop_append_of_le_length (List.isPrefixOf_iff_prefix.1 h).length_le

theorem strip_append (h : ')' ∉ word) :
    (strip word (s ++ ')' :: more)).1 = (strip word s).1 ++ ')' :: more := by
  simp only [strip, strip?, isPrefixOf_append_cons h]
  split
  · next hp => exact drop_append_of_isPrefixOf hp _
  · rfl

theorem opened?_append :
    opened? (s ++ ')' :: more) = (opened? s).map fun found =>
      (found.1, found.2 ++ ')' :: more) := by
  have hall : openings.all (fun entry => !entry.1.contains ')') = true := by decide
  rw [opened?, opened?, List.map_findSome?]
  refine Lists.findSome?_congr fun entry he => ?_
  have hw : ')' ∉ entry.1 := by simpa using List.all_eq_true.1 hall entry he
  rw [Function.comp_apply, isPrefixOf_append_cons hw]
  split
  · next hp => rw [drop_append_of_isPrefixOf hp, Option.map_some]
  · rfl

/-! ## Readers that see the same -/

/-- The reader comes to the same in front of a closing parenthesis, whether it succeeds or not. -/
def Taker.Steady (t : Taker) : Prop :=
  ∀ s more, t.rest? (s ++ ')' :: more) = (t.rest? s).map (· ++ ')' :: more)

theorem past?_steady (hc : c ≠ ')') : (past? c).Steady := by
  intro s more
  cases s with
  | nil =>
    rw [List.nil_append, rest?_past?_cons, rest?_past?_nil, if_neg (Ne.symm hc), Option.map_none]
  | cons d s =>
    rw [List.cons_append, rest?_past?_cons, rest?_past?_cons]
    split <;> rfl

theorem identifier_steady : identifier.Steady := by
  intro s more
  have hn : Text.isNameChar ')' = false := by decide
  rw [rest?_identifier, rest?_identifier, Lists.takeWhile_append_cons_of_neg hn,
    Lists.dropWhile_append_cons_of_neg hn]
  split <;> rfl

namespace Taker.Steady

theorem andThen (ht : t.Steady) (hu : u.Steady) : (t.andThen u).Steady := by
  intro s more
  rw [rest?_andThen, rest?_andThen, ht, Option.bind_map, Option.map_bind]
  exact Option.bind_congr fun mid _ => hu mid more

theorem extendedBy (ht : t.Steady) (hc : c ≠ ')') (hu : u.Steady) : (t.extendedBy c u).Steady := by
  intro s more
  rw [rest?_extendedBy, rest?_extendedBy, ht, Option.bind_map, Option.map_bind]
  refine Option.bind_congr fun mid _ => ?_
  simp only [Function.comp_apply, past?_steady hc mid more]
  cases (past? c).rest? mid with
  | none => rfl
  | some after => exact hu after more

end Taker.Steady

theorem typeName_steady : typeName.Steady :=
  identifier_steady.extendedBy (by decide) identifier_steady

theorem arrayLength_steady : arrayLength.Steady := by
  intro s more
  cases s with
  | nil =>
    have hd : ¬ Char.isDigit ')' = true := by decide
    have hname : typeName.rest? (')' :: more) = none := typeName_steady [] more
    rw [List.nil_append, rest?_arrayLength_cons, if_neg hd, hname]
    rfl
  | cons d s =>
    rw [List.cons_append, rest?_arrayLength_cons, rest?_arrayLength_cons]
    split
    · rw [Lists.dropWhile_append_cons_of_neg (by decide), Option.map_some]
    · exact typeName_steady (d :: s) more

theorem fieldNames_steady : fieldNames.Steady := by
  intro s
  induction hn : s.length using Nat.strong_induction_on generalizing s with
  | h size ih =>
    intro more
    rw [rest?_fieldNames, rest?_fieldNames, identifier_steady, Option.bind_map, Option.map_bind]
    refine Option.bind_congr fun mid hmid => ?_
    have hcomma : (past? ',').Steady := past?_steady (by decide)
    simp only [Function.comp_apply, hcomma mid more]
    cases hb : (past? ',').rest? mid with
    | none => rfl
    | some after =>
      have hlt : (skipSpaces after).length < size :=
        hn ▸ Nat.lt_trans (length_skipSpaces_rest?_lt hb) (length_rest?_lt hmid)
      simp only [Option.map_some, Option.elim_some, skipSpaces_append]
      exact ih _ hlt _ rfl more

/-! ## Readers that keep what they take -/

/-- What the reader takes off a text it takes off in front of a closing parenthesis, too, as long as
what it leaves is of this kind. -/
def Taker.Keeps (t : Taker) (left : List Char → Prop) : Prop :=
  ∀ s rest more, t.rest? s = some rest → left rest →
    t.rest? (s ++ ')' :: more) = some (rest ++ ')' :: more)

/-- What is asked of the reader of the types inside. -/
structure Taker.EndsTypes (t : Taker) : Prop where
  keeps : t.Keeps (EndsIn closers)
  /-- No type begins where another one ends. -/
  refuses : ∀ s, EndsIn closers s → t.rest? s = none
  /-- Of a name with a space or a comma behind it nothing but the name is a type. -/
  name : ∀ s rest, identifier.rest? s = some rest →
    (rest.head? = some ' ' ∨ rest.head? = some ',') →
    ∀ left, t.rest? s = some left → left = rest

theorem EndsIn.append (h : EndsIn closers s) (more : List Char) :
    EndsIn closers (s ++ ')' :: more) := by
  rw [EndsIn, skipSpaces_append, List.head?_append]
  intro c hc
  cases hs : (skipSpaces s).head? with
  | none =>
    rw [hs, Option.none_or, List.head?_cons] at hc
    exact Option.some.inj hc ▸ List.mem_cons_self
  | some d =>
    rw [hs, Option.some_or] at hc
    exact h c (hs.trans hc)

theorem past?_append (hs : s ≠ []) :
    (past? c).rest? (s ++ more) = ((past? c).rest? s).map (· ++ more) := by
  obtain ⟨d, s, rfl⟩ := List.exists_cons_of_ne_nil hs
  rw [List.cons_append, rest?_past?_cons, rest?_past?_cons]
  split <;> rfl

namespace Taker

variable {left between : List Char → Prop}

theorem Steady.keeps (ht : t.Steady) (left : List Char → Prop) : t.Keeps left := by
  intro s rest more h _
  rw [ht, h, Option.map_some]

namespace Keeps

theorem mono (ht : t.Keeps left) (h : ∀ rest, between rest → left rest) : t.Keeps between :=
  fun s rest more hr hl => ht s rest more hr (h rest hl)

theorem andThen (ht : t.Keeps between) (hu : u.Keeps left)
    (hmid : ∀ mid rest, u.rest? mid = some rest → between mid) : (t.andThen u).Keeps left := by
  intro s rest more h hl
  rw [rest?_andThen] at h ⊢
  obtain ⟨mid, hm, hr⟩ := Option.bind_eq_some_iff.1 h
  rw [ht s mid more hm (hmid mid rest hr), Option.bind_some]
  exact hu mid rest more hr hl

theorem spaced (ht : t.Keeps left) : t.spaced.Keeps left := by
  intro s rest more h hl
  rw [rest?_spaced] at h ⊢
  rw [skipSpaces_append]
  exact ht _ rest more h hl

theorem marked (hw : ')' ∉ word) (ht : t.Keeps left) : (t.marked word).Keeps left := by
  intro s rest more h hl
  rw [rest?_marked] at h ⊢
  rw [strip_append hw]
  exact ht _ rest more h hl

theorem headed (ht : t.Steady) (hu : u.Keeps left) (hv : v.Keeps left) :
    (headed t u v).Keeps left := by
  intro s rest more h hl
  rw [rest?_headed] at h ⊢
  rw [ht]
  cases hh : t.rest? s with
  | none =>
    rw [hh] at h
    exact hv s rest more h hl
  | some mid =>
    rw [hh] at h
    exact hu mid rest more h hl

/-- A closing character ends the items, so nothing is asked of what follows it. -/
theorem itemsThen {separator close : Char} (hi : item.Keeps (EndsIn [separator, close])) :
    (itemsThen item separator close).Keeps fun _ => True := by
  intro s
  induction hn : s.length using Nat.strong_induction_on generalizing s with
  | h size ih =>
    intro rest more h _
    rw [rest?_itemsThen, Option.or_eq_some_iff] at h ⊢
    obtain h | ⟨hclose, h⟩ := h
    · rw [rest?_past?_eq_some] at h ⊢
      exact .inl (by rw [h]; rfl)
    · obtain ⟨mid, hmid, hr⟩ := Option.bind_eq_some_iff.1 h
      have hs : s ≠ [] := List.ne_nil_of_length_pos (Nat.zero_lt_of_lt (length_rest?_lt hmid))
      refine .inr ⟨by rw [past?_append hs, hclose, Option.map_none],
        Option.bind_eq_some_iff.2 ⟨mid ++ ')' :: more, ?_, ?_⟩⟩
      · refine hi s mid more hmid ?_
        obtain hr | ⟨-, hr⟩ := Option.or_eq_some_iff.1 hr
        · exact endsIn_of_past? hr (by simp)
        · obtain ⟨after, hafter, -⟩ := Option.bind_eq_some_iff.1 hr
          exact endsIn_of_past? hafter (by simp)
      · rw [skipSpaces_append, Option.or_eq_some_iff] at *
        obtain hr | ⟨hnone, hr⟩ := hr
        · rw [rest?_past?_eq_some] at hr ⊢
          exact .inl (by rw [hr]; rfl)
        · obtain ⟨after, hafter, hr⟩ := Option.bind_eq_some_iff.1 hr
          have hlt : (skipSpaces after).length < size :=
            hn ▸ Nat.lt_trans (length_skipSpaces_rest?_lt hafter) (length_skipSpaces_rest?_lt hmid)
          have hm : skipSpaces mid ≠ [] :=
            List.ne_nil_of_length_pos (Nat.zero_lt_of_lt (length_rest?_lt hafter))
          refine .inr ⟨by rw [past?_append hm, hnone, Option.map_none], ?_⟩
          rw [past?_append hm, hafter, Option.map_some, Option.bind_some, skipSpaces_append]
          exact ih _ hlt _ rfl rest more hr trivial

end Keeps
end Taker

/-! ## Constructs -/

namespace Taker.EndsTypes

theorem typeArguments (ht : t.EndsTypes) : (typeArguments t).Keeps fun _ => True := by
  intro s
  induction hn : s.length using Nat.strong_induction_on generalizing s with
  | h size ih =>
    intro rest more h _
    rw [rest?_typeArguments] at h ⊢
    obtain ⟨mid, hmid, hr⟩ := Option.bind_eq_some_iff.1 h
    have hsquare : (past? ']').Steady := past?_steady (by decide)
    have hcomma : (past? ',').Steady := past?_steady (by decide)
    have hends : EndsIn closers mid := by
      obtain hr | ⟨-, hr⟩ := Option.or_eq_some_iff.1 hr
      · rw [rest?_past?_eq_some.1 hr]
        exact endsIn_of_head (c := ']') rfl (by decide)
      · obtain ⟨after, hafter, -⟩ := Option.bind_eq_some_iff.1 hr
        rw [rest?_past?_eq_some.1 hafter]
        exact endsIn_of_head (c := ',') rfl (by decide)
    rw [ht.keeps s mid more hmid hends, Option.bind_some, hsquare, hcomma]
    obtain hr | ⟨hnone, hr⟩ := Option.or_eq_some_iff.1 hr
    · rw [hr]
      rfl
    · obtain ⟨after, hafter, hr⟩ := Option.bind_eq_some_iff.1 hr
      have hlt : (strip [' '] after).1.length < size := by
        have hmid := length_rest?_lt hmid
        have hafter := length_rest?_lt hafter
        have hle := (strip [' '] after).2
        omega
      rw [hnone, hafter, Option.map_some, Option.bind_some, strip_append (by decide)]
      exact ih _ hlt _ rfl rest more hr trivial

theorem named (ht : t.EndsTypes) : (named t).Keeps (EndsIn closers) := by
  intro s rest more h _
  rw [TypeText.named, rest?_extendedBy] at h ⊢
  obtain ⟨mid, hmid, hr⟩ := Option.bind_eq_some_iff.1 h
  have hopen : (past? '[').Steady := past?_steady (by decide)
  rw [typeName_steady, hmid, Option.map_some, Option.bind_some, hopen]
  cases hb : (past? '[').rest? mid with
  | none =>
    rw [hb] at hr
    cases hr
    rfl
  | some after =>
    rw [hb] at hr
    exact ht.typeArguments after rest more hr trivial

theorem variadic (ht : t.EndsTypes) : (variadic t).Keeps (EndsIn closers) :=
  ht.keeps.marked (by decide)

theorem parameters (ht : t.EndsTypes) : (parameters t).Keeps fun _ => True := by
  have hname : (identifier.andThen (past? ' ')).Steady :=
    identifier_steady.andThen (past?_steady (by decide))
  have hp : (parameter t).Keeps (EndsIn closers) := .headed hname ht.variadic.spaced ht.variadic
  have hends : ∀ rest, EndsIn [',', ')'] rest → EndsIn closers rest :=
    fun rest h => h.mono (by decide)
  exact (Keeps.itemsThen (hp.mono hends)).spaced

/-- Where no type could be taken as the result, none can be taken there now. -/
theorem signature (ht : t.EndsTypes) : (signature t).Keeps (EndsIn closers) := by
  intro s rest more h hl
  rw [rest?_signature] at h ⊢
  obtain ⟨mid, hmid, hr⟩ := Option.bind_eq_some_iff.1 h
  have hspace : (past? ' ').Steady := past?_steady (by decide)
  have hopen : (past? '(').Steady := past?_steady (by decide)
  rw [ht.parameters s mid more hmid trivial, Option.bind_some, hspace]
  cases hb : (past? ' ').rest? mid with
  | none =>
    rw [hb] at hr
    cases hr
    rfl
  | some after =>
    rw [hb, Option.elim_some] at hr
    rw [Option.map_some, Option.elim_some, hopen]
    cases ho : (past? '(').rest? after with
    | some inner =>
      rw [ho] at hr
      exact ht.parameters inner rest more hr trivial
    | none =>
      rw [ho, Option.elim_none] at hr
      rw [Option.map_none, Option.elim_none]
      cases hc : t.rest? after with
      | some result =>
        rw [hc] at hr
        cases hr
        rw [ht.keeps after _ more hc hl]
        rfl
      | none =>
        rw [hc] at hr
        cases hr
        rw [rest?_past?_eq_some.1 hb] at hl
        have hafter : EndsIn closers (after ++ ')' :: more) := EndsIn.append hl more
        rw [ht.refuses _ hafter]
        rfl

theorem union (ht : t.EndsTypes) : (union t).Keeps (EndsIn closers) := by
  intro s
  induction hn : s.length using Nat.strong_induction_on generalizing s with
  | h size ih =>
    intro rest more h hl
    rw [rest?_union] at h ⊢
    obtain ⟨mid, hmid, hr⟩ := Option.bind_eq_some_iff.1 h
    have hterm : (unionTerm t).Keeps (EndsIn closers) := ht.keeps.marked (by decide)
    have hbar : (past? '|').Steady := past?_steady (by decide)
    cases hb : (past? '|').rest? (skipSpaces mid) with
    | none =>
      rw [hb] at hr
      cases hr
      rw [hterm s _ more hmid hl, Option.bind_some, skipSpaces_append, hbar, hb]
      rfl
    | some after =>
      rw [hb] at hr
      have hlt : (skipSpaces after).length < size :=
        hn ▸ Nat.lt_trans (length_skipSpaces_rest?_lt hb) (length_skipSpaces_rest?_lt hmid)
      rw [hterm s mid more hmid (endsIn_of_past? hb (by decide)), Option.bind_some,
        skipSpaces_append, hbar, hb, Option.map_some, Option.elim_some, skipSpaces_append]
      exact ih _ hlt _ rfl rest more hr hl

theorem interfaceElement (ht : t.EndsTypes) : (interfaceElement t).Keeps (EndsIn closers) :=
  .headed (identifier_steady.andThen (past?_steady (by decide))) ht.signature ht.union

theorem body {element : Taker} (he : element.Keeps (EndsIn [';', '\x7d'])) :
    (body element).Keeps fun _ => True :=
  he.itemsThen.spaced

end Taker.EndsTypes

/-! ## Fields and their tags -/

theorem afterQuote_append {escaped : Bool} (h : afterQuote escaped s = some rest)
    (more : List Char) :
    afterQuote escaped (s ++ more) = some (rest ++ more) := by
  induction s generalizing escaped with
  | nil => cases h
  | cons c s ih =>
    rw [List.cons_append]
    rw [afterQuote] at h ⊢
    split at h
    · next he => rw [if_pos he, ih h]
    · next he =>
      rw [if_neg he]
      split at h
      · next hc => rw [if_pos hc, ih h]
      · next hc =>
        rw [if_neg hc]
        split at h
        · next hq =>
          cases h
          rw [if_pos hq]
        · next hq =>
          rw [if_neg hq]
          split at h
          · cases h
          · next hb => rw [if_neg hb, ih h]

theorem rest?_rawTag_append (h : rawTag.rest? s = some rest) (more : List Char) :
    rawTag.rest? (s ++ more) = some (rest ++ more) := by
  rw [rest?_rawTag, rest?_past?_eq_some] at h ⊢
  rw [List.dropWhile_append, h]
  rfl

theorem tagRest?_append (h : tagRest? s = some rest) (more : List Char) :
    tagRest? (s ++ ')' :: more) = some (rest ++ ')' :: more) := by
  have hraw : (past? '\x60').Steady := past?_steady (by decide)
  have hquote : (past? '"').Steady := past?_steady (by decide)
  rw [tagRest?_eq] at h ⊢
  rw [skipSpaces_append, hraw, hquote]
  cases hr : (past? '\x60').rest? (skipSpaces s) with
  | some inner =>
    rw [hr] at h
    exact rest?_rawTag_append h _
  | none =>
    rw [hr, Option.elim_none] at h
    rw [Option.map_none, Option.elim_none]
    cases hq : (past? '"').rest? (skipSpaces s) with
    | some inner =>
      rw [hq, Option.elim_some, rest?_interpretedTag] at h
      rw [Option.map_some, Option.elim_some, rest?_interpretedTag, afterQuote_append h]
    | none =>
      rw [hq] at h
      cases h
      rfl

/-- What ends a field, and what begins a tag. -/
def fieldEnds : List Char := [';', '\x7d', '\x60', '"']

theorem endsIn_of_tagRest? (h : tagRest? mid = some rest) (hl : EndsIn [';', '\x7d'] rest) :
    EndsIn fieldEnds mid := by
  rw [tagRest?_eq] at h
  cases hr : (past? '\x60').rest? (skipSpaces mid) with
  | some inner => exact endsIn_of_past? hr (by decide)
  | none =>
    rw [hr, Option.elim_none] at h
    cases hq : (past? '"').rest? (skipSpaces mid) with
    | some inner => exact endsIn_of_past? hq (by decide)
    | none =>
      rw [hq] at h
      cases h
      exact hl.mono (by decide)

namespace Taker.EndsTypes

theorem namedField (ht : t.EndsTypes) : (namedField t).Keeps (EndsIn closers) := by
  have hnames : (fieldNames.andThen (past? ' ')).Steady :=
    fieldNames_steady.andThen (past?_steady (by decide))
  exact (hnames.keeps fun _ => True).andThen ht.keeps.spaced fun _ _ _ => trivial

/-- Where a type ends as a field does, no names stand in front of another type. -/
theorem namedField_eq_none (ht : t.EndsTypes) (hs : t.rest? s = some mid)
    (hm : EndsIn fieldEnds mid) :
    (TypeText.namedField t).rest? (s ++ ')' :: more) = none := by
  have hnames : (fieldNames.andThen (past? ' ')).Steady :=
    fieldNames_steady.andThen (past?_steady (by decide))
  rw [TypeText.namedField, rest?_andThen, hnames]
  cases ha : (fieldNames.andThen (past? ' ')).rest? s with
  | none => rfl
  | some after =>
    rw [Option.map_some, Option.bind_some, rest?_spaced, skipSpaces_append]
    rw [rest?_andThen] at ha
    obtain ⟨names, hnames, hspace⟩ := Option.bind_eq_some_iff.1 ha
    rw [rest?_past?_eq_some.1 hspace, rest?_fieldNames] at hnames
    obtain ⟨first, hfirst, hmore⟩ := Option.bind_eq_some_iff.1 hnames
    cases hc : (past? ',').rest? first with
    | some second =>
      -- With a comma behind the first name, that name would be the whole field.
      obtain rfl := rest?_past?_eq_some.1 hc
      rw [ht.name s _ hfirst (.inr rfl) mid hs] at hm
      exact absurd (hm ',' rfl) (by decide)
    | none =>
      rw [hc] at hmore
      obtain rfl := Option.some.inj hmore
      rw [ht.name s _ hfirst (.inl rfl) mid hs] at hm
      have hafter : EndsIn closers (skipSpaces after) := by
        rw [EndsIn, skipSpaces_skipSpaces]
        exact EndsIn.mono hm (by decide)
      exact ht.refuses _ (hafter.append more)

theorem field (ht : t.EndsTypes) : (field t).Keeps (EndsIn [';', '\x7d']) := by
  intro s rest more h hl
  rw [rest?_field] at h ⊢
  obtain ⟨mid, hmid, htag⟩ := Option.bind_eq_some_iff.1 h
  have hends : EndsIn fieldEnds mid := endsIn_of_tagRest? htag hl
  have hfound : ((TypeText.namedField t).rest? (s ++ ')' :: more)).or (t.rest? (s ++ ')' :: more)) =
      some (mid ++ ')' :: more) := by
    obtain hn | ⟨-, hs⟩ := Option.or_eq_some_iff.1 hmid
    · rw [ht.namedField s mid more hn (hends.mono (by decide)), Option.some_or]
    · rw [ht.namedField_eq_none hs hends, Option.none_or,
        ht.keeps s mid more hs (hends.mono (by decide))]
  rw [hfound, Option.bind_some, tagRest?_append htag]

/-! ## Types -/

theorem opening (ht : t.EndsTypes) (opening : Opening) :
    (opening.take t).Keeps (EndsIn closers) := by
  have hclosed {u : Taker} {left : List Char → Prop} (hu : u.Keeps left)
      (hleft : ∀ rest, left (']' :: rest)) :
      ((u.andThen (past? ']')).andThen t).Keeps (EndsIn closers) := by
    have hsquare : (past? ']').Keeps fun _ => True := Steady.keeps (past?_steady (by decide)) _
    refine (hu.andThen hsquare fun mid rest hm => ?_).andThen ht.keeps fun _ _ _ => trivial
    rw [rest?_past?_eq_some.1 hm]
    exact hleft rest
  cases opening with
  | pointer => exact ht.keeps
  | slice => exact ht.keeps
  | map => exact hclosed ht.keeps fun rest => endsIn_of_head (c := ']') rfl (by decide)
  | array => exact hclosed (arrayLength_steady.keeps fun _ => True) fun _ => trivial
  | channel => exact ht.keeps
  | function => exact ht.signature
  | interface =>
    have he : (TypeText.interfaceElement t).Keeps (EndsIn [';', '\x7d']) :=
      ht.interfaceElement.mono fun rest h => h.mono (by decide)
    exact (body he).mono fun _ _ => trivial
  | struct => exact (body ht.field).mono fun _ _ => trivial

end Taker.EndsTypes

theorem take_endsTypes (levels : Nat) : (take levels).EndsTypes := by
  induction levels with
  | zero => exact ⟨nofun, fun _ _ => rfl, nofun⟩
  | succ levels ih =>
    refine ⟨fun s rest more h hl => ?_, fun _ h =>
      rest?_take_of_endsIn _ h, fun _ _ hi hc _ ht => ?_⟩
    · rw [rest?_take_opened] at h ⊢
      rw [opened?_append]
      cases ho : opened? s with
      | none =>
        rw [ho] at h
        exact ih.named s rest more h hl
      | some found =>
        rw [ho] at h
        exact ih.opening found.1 found.2 rest more h hl
    · exact rest?_take_of_identifier hi hc ht

theorem rest?_append_of_isTypeText {type : String} (h : isTypeText type = true) (more : List Char) :
    (take maxLevels).rest? (type.toList ++ ')' :: more) = some (')' :: more) :=
  (take_endsTypes maxLevels).keeps _ [] more (rest?_of_isTypeText h) (endsIn_nil closers)

/-- What the reader leaves tells where the type ended. -/
theorem type_append_inj {type other : String} {more more' : List Char} (h : isTypeText type = true)
    (ho : isTypeText other = true)
    (heq : type.toList ++ ')' :: more = other.toList ++ ')' :: more') :
    type = other ∧ more = more' := by
  have hrest := rest?_append_of_isTypeText h more
  rw [heq, rest?_append_of_isTypeText ho more', Option.some.injEq, List.cons.injEq] at hrest
  obtain rfl := hrest.2.symm
  exact ⟨String.toList_injective (List.append_cancel_right heq), rfl⟩

end TypeText

/-! ## The functions of attributes -/

/-- A function text up to the parameter's name, and from the type's end. -/
theorem toList_attribute_text (function key type : String) :
    (Section.attribute function key type).text.toList = "func ".toList ++ (function.toList ++ '(' ::
      ("value ".toList ++ (type.toList ++ ')' :: (" slog.Attr \x7b\n\treturn slog.".toList ++
        ((slogConstructor type).toList ++
          '(' :: ((literal key).toList ++ ", value)\n\x7d\n".toList)))))) := by
  simp [Section.text, Section.lines]

theorem attribute_text_append_inj {function function' key key' type other : String}
    {more more' : List Char} (hf : isIdentifier function = true)
    (hf' : isIdentifier function' = true) (ht : isTypeText type = true)
    (ho : isTypeText other = true)
    (h : (Section.attribute function key type).text.toList ++ more =
      (Section.attribute function' key' other).text.toList ++ more') :
    function = function' ∧ type = other ∧
      (literal key).toList ++ ", value)\n\x7d\n".toList ++ more =
        (literal key').toList ++ ", value)\n\x7d\n".toList ++ more' := by
  simp only [toList_attribute_text, List.append_assoc, List.cons_append] at h
  have hopen : Text.isNameChar '(' = false := by decide
  obtain ⟨hfunction, h⟩ := Lists.append_cons_inj (not_mem_of_isIdentifier hf hopen)
    (not_mem_of_isIdentifier hf' hopen) (List.append_cancel_left h)
  obtain ⟨rfl, h⟩ := TypeText.type_append_inj ht ho (List.append_cancel_left h)
  have h := (List.cons.inj (List.append_cancel_left (List.append_cancel_left h))).2
  rw [← List.append_assoc, ← List.append_assoc] at h
  exact ⟨String.toList_injective hfunction, rfl, h⟩

/-- An accepted type in front of a closing parenthesis is read back exactly, whatever comes after
that, and the text of an attribute's function tells the type it was written for. -/
theorem accepted_type_read_back {type : String} (h : isTypeText type = true) :
    (∀ rest, rest.head? = some ')' →
      (TypeText.take TypeText.maxLevels).rest? (type.toList ++ rest) = some rest) ∧
    ∀ other function function' key key', isTypeText other = true → isIdentifier function = true →
      isIdentifier function' = true →
      (Section.attribute function key type).text = (Section.attribute function' key' other).text →
        type = other := by
  constructor
  · intro rest hr
    obtain ⟨more, rfl⟩ := List.head?_eq_some_iff.1 hr
    exact TypeText.rest?_append_of_isTypeText h more
  · intro other function function' key key' ho hf hf' heq
    have htext : (Section.attribute function key type).text.toList ++ [] =
        (Section.attribute function' key' other).text.toList ++ [] := by rw [heq]
    exact (attribute_text_append_inj hf hf' h ho htext).2.1

/-- A type whose tag looks like the end of the function's line, told apart from the type in front of
the tag. -/
theorem accepted_type_read_back_taggedStruct :
    isTypeText "struct\x7b F func() \x60) slog.Attr \x7b\x60 \x7d" = true ∧
    (TypeText.take TypeText.maxLevels).rest?
        ("struct\x7b F func() \x60) slog.Attr \x7b\x60 \x7d".toList ++ ") slog.Attr \x7b".toList) =
      some ") slog.Attr \x7b".toList ∧
    isTypeText "struct\x7b F func() \x7d" = true ∧ isIdentifier "Hook" = true ∧
    (Section.attribute "Hook" "hook" "struct\x7b F func() \x60) slog.Attr \x7b\x60 \x7d").text ≠
      (Section.attribute "Hook" "hook" "struct\x7b F func() \x7d").text := by
  have h : isTypeText "struct\x7b F func() \x60) slog.Attr \x7b\x60 \x7d" = true := by
    decide +kernel
  have ho : isTypeText "struct\x7b F func() \x7d" = true := by decide +kernel
  have hf : isIdentifier "Hook" = true := by decide
  refine ⟨h, (accepted_type_read_back h).1 _ (by decide), ho, hf, fun heq => ?_⟩
  exact absurd ((accepted_type_read_back h).2 _ _ _ _ _ ho hf hf heq) (by decide)

end SlogHelpers.Source
