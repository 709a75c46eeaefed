import SlogHelpers.Proofs.Source.Deciding

/-!
The texts of type trees, read. Each reader takes exactly the text of its construct where the trees
inside are low enough for it. Where one of them is too high, the reader fails or leaves something
that cannot follow a type, and then so does every reader around it.
-/
namespace SlogHelpers.Source

namespace TypeText

variable {t : Taker} {r : List Char} {ok : Prop} {left : List Char → Prop}

/-! ## Parameters and signatures -/

def resultRest? (t : Taker) (s : List Char) : Option (List Char) :=
  ((past? ' ').rest? s).elim (some s) fun after =>
    ((past? '(').rest? after).elim (some ((t.rest? after).getD s)) (parameters t).rest?

def unionRest? (t : Taker) (s : List Char) : Option (List Char) :=
  ((past? '|').rest? (skipSpaces s)).elim (some s) fun after => (union t).rest? (skipSpaces after)

/-- What is asked of the reader of the types inside: it decides the text of every type, where it
goes by whether the type is good. -/
structure Taker.ReadsTypes (t : Taker) (good : TypeTree → Prop) : Prop where
  ends : t.EndsTypes
  decides : ∀ type r, EndsIn closers r → Decides t.rest? (EndsIn closers) type.text r (good type)

namespace Taker.ReadsTypes

variable {good : TypeTree → Prop}

theorem variadic (ht : t.ReadsTypes good) (dots : Bool) (type : TypeTree) (hr : EndsIn closers r) :
    Decides (TypeText.variadic t).rest? (EndsIn closers)
      ((if dots then ['.', '.', '.'] else []) ++ type.text) r (good type) := by
  refine (ht.decides type r hr).of_eq ?_
  rw [TypeText.variadic, rest?_marked]
  cases dots with
  | true => rfl
  | false =>
    have hstrip : (strip ['.', '.', '.'] (type.text ++ r)).1 = type.text ++ r :=
      strip_text (by decide) type r
    rw [if_neg Bool.false_ne_true, List.nil_append, hstrip]

theorem skipSpaces_variadic (dots : Bool) (type : TypeTree) (r : List Char) :
    skipSpaces ((if dots then ['.', '.', '.'] else []) ++ type.text ++ r) =
      (if dots then ['.', '.', '.'] else []) ++ type.text ++ r := by
  cases dots with
  | true => rfl
  | false =>
    rw [if_neg Bool.false_ne_true, List.nil_append]
    exact skipSpaces_text type r

theorem parameter (ht : t.ReadsTypes good) (parameter : Parameter)
    (hr : r.head? = some ',' ∨ r.head? = some ')') :
    Decides (TypeText.parameter t).rest? (EndsIn closers) (textOf parameter.fragments) r
      (good parameter.type) := by
  obtain ⟨name, dots, type⟩ := parameter
  have hends : EndsIn closers r := by
    obtain hr | hr := hr
    · obtain ⟨more, rfl⟩ := List.head?_eq_some_iff.1 hr
      exact endsIn_of_head (c := ',') rfl (by decide)
    · obtain ⟨more, rfl⟩ := List.head?_eq_some_iff.1 hr
      exact endsIn_of_head (c := ')') rfl (by decide)
  have hv := ht.variadic dots type hends
  cases name with
  | none =>
    have htext : textOf (Parameter.mk none dots type).fragments =
        (if dots then ['.', '.', '.'] else []) ++ type.text := by
      simp [Parameter.fragments]
    rw [htext]
    refine .headless ?_ hv
    cases dots with
    | true => rfl
    | false =>
      have hspace : r.head? ≠ some ' ' := by
        obtain hr | hr := hr <;> simp [hr]
      exact rest?_identifier_past?_text (by decide) (endsName_of_endsIn hends) hspace type
  | some name =>
    have htext : textOf (Parameter.mk (some name) dots type).fragments =
        (name.1 ++ [' ']) ++ ((if dots then ['.', '.', '.'] else []) ++ type.text) := by
      simp [Parameter.fragments]
    rw [htext]
    refine .headed ?_ (hv.of_eq ?_)
    · rw [rest?_andThen, List.append_assoc, List.singleton_append,
        rest?_identifier_append name (beginsIn_cons (by decide) _), Option.bind_some]
      exact rest?_past?_eq_some.2 rfl
    · rw [rest?_spaced, skipSpaces_variadic]

theorem parameters (ht : t.ReadsTypes good) (ps : List Parameter) (r : List Char) :
    Decides (TypeText.parameters t).rest? (fun _ => True) (textOf (parameterFragments ps)) r
      (∀ inner ∈ ps.map Parameter.type, good inner) := by
  cases ps with
  | nil =>
    exact .of_takes (by rw [TypeText.parameters, rest?_spaced, rest?_itemsThen]; rfl)
      (List.forall_mem_nil _)
  | cons first more =>
    have htext : textOf (parameterFragments (first :: more)) =
        [',', ' '].intercalate
          ((first :: more).map fun parameter => textOf parameter.fragments) ++ [')'] := by
      simp [parameterFragments, commaList, Function.comp_def]
    have hparameter (parameter : Parameter) (r : List Char)
        (hr : r.head? = some ',' ∨ r.head? = some ')') :
        Decides (TypeText.parameter t).rest? (EndsIn [',', ')']) (textOf parameter.fragments) r
          (good parameter.type) :=
      (ht.parameter parameter hr).mono fun rest h => h.mono (by decide)
    have hitems :=
      itemsThen_decides (r := r) hparameter beginsItem_parameter (by decide) (by decide)
      (fun s => .inl rfl) (.inr (rfl : ([')'] ++ r).head? = some ')')) rfl first more
    rw [htext]
    refine (hitems.of_eq ?_).congr List.forall_mem_map.symm
    rw [TypeText.parameters, rest?_spaced, List.append_assoc,
      ((BeginsItem.intercalate beginsItem_parameter _ first more).append _).skipSpaces]

/-- A result that is too high is left behind the parameters. -/
theorem result (ht : t.ReadsTypes good) (result : Result) (hr : EndsIn closers r) :
    Decides (resultRest? t) (EndsIn closers) (textOf result.fragments) r
      (∀ inner ∈ result.types, good inner) := by
  cases result with
  | nothing =>
    refine .of_takes ?_ (List.forall_mem_nil _)
    change resultRest? t r = some r
    rw [resultRest?]
    cases hb : (past? ' ').rest? r with
    | none => rfl
    | some after =>
      obtain rfl := rest?_past?_eq_some.1 hb
      have hafter : EndsIn closers after := hr
      rw [Option.elim_some, rest?_past?_eq_none (head?_ne_of_endsIn hafter (by decide)),
        Option.elim_none, ht.ends.refuses after hafter]
      rfl
  | single type =>
    have hopen : (type.text ++ r).head? ≠ some '(' :=
      ((beginsItem_text type).append r).head?_ne (by decide)
    have htext : resultRest? t (textOf (Result.single type).fragments ++ r) =
        some ((t.rest? (type.text ++ r)).getD (' ' :: (type.text ++ r))) := by
      have hs : textOf (Result.single type).fragments ++ r = ' ' :: (type.text ++ r) := by
        simp [Result.fragments]
      rw [hs, resultRest?, rest?_past?_cons, if_pos rfl, Option.elim_some,
        rest?_past?_eq_none hopen, Option.elim_none]
    have htype := ht.decides type r hr
    refine ⟨fun h => ?_, fun h rest hrest => ?_⟩
    · rw [htext, htype.takes (h type List.mem_cons_self)]
      rfl
    · have hn : ¬ good type := fun hg => h (List.forall_mem_singleton.2 hg)
      rw [htext] at hrest
      obtain rfl := Option.some.inj hrest
      cases hread : t.rest? (type.text ++ r) with
      | none => exact not_endsIn_text type r
      | some after => exact htype.sticks hn after hread
  | list results =>
    refine ((ht.parameters results r).of_eq ?_).mono fun _ _ => trivial
    rfl

theorem signature (ht : t.ReadsTypes good) (ps : List Parameter) (result : Result)
    (hr : EndsIn closers r) :
    Decides (TypeText.signature t).rest? (EndsIn closers)
      (textOf (parameterFragments ps ++ result.fragments)) r
      (∀ inner ∈ ps.map Parameter.type ++ result.types, good inner) := by
  have hboth := (ht.parameters ps (textOf result.fragments ++ r)).bind (ht.result result hr)
    fun _ _ hn _ => absurd trivial hn
  rw [textOf_append]
  exact (hboth.of_eq (rest?_signature ..)).congr List.forall_mem_append.symm

/-! ## Named types -/

theorem typeArguments (ht : t.ReadsTypes good) (first : TypeTree) (more : List TypeTree)
    (r : List Char) :
    Decides (TypeText.typeArguments t).rest? (fun _ => True)
      ([',', ' '].intercalate ((first :: more).map TypeTree.text) ++ [']']) r
        (∀ inner ∈ first :: more, good inner) := by
  have hmid (mid rest : List Char) (hn : ¬ EndsIn closers mid)
      (h : argumentsRest? t mid = some rest) : ¬ True := by
    obtain h | ⟨-, h⟩ := Option.or_eq_some_iff.1 h
    · rw [rest?_past?_eq_some.1 h] at hn
      exact absurd (endsIn_of_head (c := ']') rfl (by decide)) hn
    · obtain ⟨after, hafter, -⟩ := Option.bind_eq_some_iff.1 h
      rw [rest?_past?_eq_some.1 hafter] at hn
      exact absurd (endsIn_of_head (c := ',') rfl (by decide)) hn
  induction more generalizing first with
  | nil =>
    have hclose : Decides (argumentsRest? t) (fun _ => True) [']'] r True := .of_takes rfl trivial
    have hfirst := ht.decides first ([']'] ++ r) (endsIn_of_head (c := ']') rfl (by decide))
    rw [List.map_cons, List.map_nil, List.intercalate_singleton]
    exact ((hfirst.bind hclose hmid).of_eq (rest?_typeArguments_bind ..)).congr (by simp)
  | cons next more ih =>
    have hfirst := ht.decides first
        ([',', ' '] ++ ([',', ' '].intercalate ((next :: more).map TypeTree.text) ++ [']']) ++ r)
      (endsIn_of_head (c := ',') rfl (by decide))
    have hmore : Decides (argumentsRest? t) (fun _ => True)
        ([',', ' '] ++ ([',', ' '].intercalate ((next :: more).map TypeTree.text) ++ [']'])) r
        (∀ inner ∈ next :: more, good inner) := (ih next).of_eq rfl
    rw [List.map_cons, List.map_cons, List.intercalate_cons_cons, List.append_assoc,
      List.append_assoc]
    exact ((hfirst.bind hmore hmid).of_eq (rest?_typeArguments_bind ..)).congr
      List.forall_mem_cons.symm

theorem named (ht : t.ReadsTypes good) (name : TypeName) (arguments : List TypeTree)
    (hr : EndsIn closers r) :
    Decides (TypeText.named t).rest? (EndsIn closers) (TypeTree.named name arguments).text r
      (∀ inner ∈ arguments, good inner) := by
  rw [TypeTree.text_eq]
  cases arguments with
  | nil =>
    have htext : textOf (TypeTree.named name []).fragments = name.text := by
      simp [TypeTree.fragments]
    refine .of_takes ?_ (List.forall_mem_nil _)
    rw [htext, TypeText.named, rest?_extendedBy,
      rest?_typeName_append name (endsName_of_endsIn hr) (head?_ne_of_endsIn hr (by decide)),
      Option.bind_some, rest?_past?_eq_none (head?_ne_of_endsIn hr (by decide)), Option.elim_none]
  | cons first more =>
    have htext : textOf (TypeTree.named name (first :: more)).fragments =
        name.text ++
          '[' :: ([',', ' '].intercalate ((first :: more).map TypeTree.text) ++ [']']) := by
      simp only [TypeTree.fragments, commaList, textOf_append, textOf_chars, textOf_nil,
        textOf_intercalate, List.map_map, Function.comp_def, textOf_type, List.append_nil,
        List.append_assoc, List.cons_append, List.nil_append]
    refine ((ht.typeArguments first more r).of_eq ?_).mono fun _ _ => trivial
    rw [htext, TypeText.named, rest?_extendedBy, List.append_assoc, List.cons_append,
      rest?_typeName_append name (beginsIn_cons (by decide) _) (by simp), Option.bind_some,
      rest?_past?_cons, if_pos rfl, Option.elim_some]

/-! ## Bodies of interfaces -/

theorem unionTerm (ht : t.ReadsTypes good) (term : Term) (hr : EndsIn closers r) :
    Decides (TypeText.unionTerm t).rest? (EndsIn closers) (textOf term.fragments) r
      (good term.type) := by
  obtain ⟨tilde, type⟩ := term
  refine (ht.decides type r hr).of_eq ?_
  rw [TypeText.unionTerm, rest?_marked]
  cases tilde with
  | true =>
    have htext : textOf (Term.mk true type).fragments = '~' :: type.text := by simp [Term.fragments]
    rw [htext]
    rfl
  | false =>
    have htext : textOf (Term.mk false type).fragments = type.text := by simp [Term.fragments]
    rw [htext, strip_text (by decide) type r]

theorem union (ht : t.ReadsTypes good) (first : Term) (more : List Term)
    (hr : EndsIn [';', '\x7d'] r) :
    Decides (TypeText.union t).rest? (EndsIn [';', '\x7d'])
      ([' ', '|', ' '].intercalate ((first :: more).map fun term => textOf term.fragments)) r
      (∀ inner ∈ (first :: more).map Term.type, good inner) := by
  have hmid (mid rest : List Char) (hn : ¬ EndsIn closers mid) (h : unionRest? t mid = some rest) :
      ¬ EndsIn [';', '\x7d'] rest := by
    rw [unionRest?] at h
    cases hb : (past? '|').rest? (skipSpaces mid) with
    | none =>
      rw [hb] at h
      obtain rfl := Option.some.inj h
      exact fun hends => hn (hends.mono (by decide))
    | some after => exact absurd (endsIn_of_past? hb (by decide)) hn
  have hnone : (past? '|').rest? (skipSpaces r) = none := by
    cases hb : (past? '|').rest? (skipSpaces r) with
    | none => rfl
    | some after => exact absurd (hr '|' (by rw [rest?_past?_eq_some.1 hb]; rfl)) (by decide)
  induction more generalizing first with
  | nil =>
    have hend : Decides (unionRest? t) (EndsIn [';', '\x7d']) [] r True := by
      refine .of_takes ?_ trivial
      rw [List.nil_append, unionRest?, hnone, Option.elim_none]
    have hfirst := ht.unionTerm first (r := [] ++ r) (hr.mono (by decide))
    have hboth := hfirst.bind hend hmid
    rw [List.append_nil] at hboth
    rw [List.map_cons, List.map_nil, List.intercalate_singleton]
    exact (hboth.of_eq (rest?_union ..)).congr (by simp)
  | cons next more ih =>
    have hmore : Decides (unionRest? t) (EndsIn [';', '\x7d'])
        ([' ', '|', ' '] ++
          [' ', '|', ' '].intercalate ((next :: more).map fun term => textOf term.fragments)) r
        (∀ inner ∈ (next :: more).map Term.type, good inner) := by
      refine (ih next).of_eq ?_
      have hitems := BeginsItem.intercalate beginsItem_term [' ', '|', ' '] next more
      rw [unionRest?, ← (hitems.append r).skipSpaces]
      rfl
    have hfirst := ht.unionTerm first
      (r := [' ', '|', ' '] ++
        [' ', '|', ' '].intercalate ((next :: more).map fun term => textOf term.fragments) ++ r)
      (endsIn_of_head (c := '|') rfl (by decide))
    rw [List.map_cons, List.map_cons, List.intercalate_cons_cons, List.append_assoc]
    exact ((hfirst.bind hmore hmid).of_eq (rest?_union ..)).congr List.forall_mem_cons.symm

theorem rest?_method_union (first : Term) (more : List Term) (hr : EndsIn [';', '\x7d'] r) :
    (identifier.andThen (past? '(')).rest?
      ([' ', '|', ' '].intercalate ((first :: more).map fun term => textOf term.fragments) ++ r) =
        none := by
  obtain ⟨tilde, type⟩ := first
  obtain ⟨behind, hbehind, hends⟩ : ∃ behind,
      [' ', '|', ' '].intercalate
        ((Term.mk tilde type :: more).map fun term => textOf term.fragments) ++ r =
        textOf (Term.mk tilde type).fragments ++ behind ∧ EndsIn closers behind := by
    cases more with
    | nil => exact ⟨r, by simp, hr.mono (by decide)⟩
    | cons next more =>
      refine ⟨[' ', '|', ' '] ++
        ([' ', '|', ' '].intercalate ((next :: more).map fun term => textOf term.fragments) ++ r),
        ?_, endsIn_of_head (c := '|') rfl (by decide)⟩
      rw [List.map_cons, List.map_cons, List.intercalate_cons_cons, List.append_assoc,
        List.append_assoc]
  rw [hbehind]
  cases tilde with
  | true => rfl
  | false =>
    have htext : textOf (Term.mk false type).fragments = type.text := by simp [Term.fragments]
    rw [htext]
    exact rest?_identifier_past?_text (by decide) (endsName_of_endsIn hends)
      (head?_ne_of_endsIn hends (by decide)) type

theorem element (ht : t.ReadsTypes good) (element : Element) (hr : EndsIn [';', '\x7d'] r) :
    Decides (interfaceElement t).rest? (EndsIn [';', '\x7d']) (textOf element.fragments) r
      (∀ inner ∈ element.types, good inner) := by
  cases element with
  | method name parameters result =>
    have hmore {rest : List Char} (h : EndsIn [';', '\x7d'] rest) : EndsIn closers rest :=
      h.mono (by decide)
    have hsignature := (ht.signature parameters result (hmore hr)).mono fun rest => hmore
    refine .headed (s := name.1 ++ ['(']) ?_ hsignature
    rw [rest?_andThen, List.append_assoc, List.singleton_append,
      rest?_identifier_append name (beginsIn_cons (by decide) _), Option.bind_some]
    exact rest?_past?_eq_some.2 rfl
  | union first more =>
    rw [Element.fragments, textOf_intercalate, List.map_map]
    exact .headless (rest?_method_union first more hr) (ht.union first more hr)

end Taker.ReadsTypes

/-! ## Tags -/

theorem afterQuote_parts (parts : List TagPart) (r : List Char) :
    afterQuote false (parts.flatMap TagPart.text ++ '"' :: r) = some r := by
  induction parts with
  | nil => rfl
  | cons part parts ih =>
    rw [List.flatMap_cons, List.append_assoc]
    cases part with
    | plain c =>
      obtain ⟨c, hslash, hquote, hline⟩ := c
      change afterQuote false (c :: (parts.flatMap TagPart.text ++ '"' :: r)) = some r
      rw [afterQuote, if_neg Bool.false_ne_true, if_neg hslash, if_neg hquote, if_neg hline, ih]
    | escaped c => exact ih

theorem tagRest?_tagText (tag : Option Tag) (hr : EndsIn [';', '\x7d'] r) :
    tagRest? (tagText tag ++ r) = some r := by
  rw [tagRest?_eq]
  cases tag with
  | none =>
    have hnone {c : Char} (hc : c ∉ [';', '\x7d']) : (past? c).rest? (skipSpaces r) = none :=
      rest?_past?_eq_none fun h => hc (hr c h)
    change ((past? '\x60').rest? (skipSpaces r)).elim _ _ = _
    rw [hnone (by decide), Option.elim_none]
    change ((past? '"').rest? (skipSpaces r)).elim _ _ = _
    rw [hnone (by decide), Option.elim_none]
    rfl
  | some tag =>
    cases tag with
    | raw cs =>
      obtain ⟨cs, hcs⟩ := cs
      have htext : tagText (some (.raw ⟨cs, hcs⟩)) ++ r = ' ' :: '\x60' :: (cs ++ '\x60' :: r) := by
        simp [tagText, Tag.text]
      have hpos : ∀ c ∈ cs, decide (c ≠ '\x60') = true :=
        fun c hc => decide_eq_true fun he => hcs (he ▸ hc)
      have hdrop : (cs ++ '\x60' :: r).dropWhile (· ≠ '\x60') = '\x60' :: r := by
        rw [List.dropWhile_append_of_pos hpos, List.dropWhile_cons_of_neg (by simp)]
      rw [htext]
      change rawTag.rest? (cs ++ '\x60' :: r) = some r
      rw [rest?_rawTag, hdrop]
      rfl
    | quoted parts =>
      have htext : tagText (some (.quoted parts)) ++ r =
          ' ' :: '"' :: (parts.flatMap TagPart.text ++ '"' :: r) := by
        simp [tagText, Tag.text]
      rw [htext]
      change interpretedTag.rest? (parts.flatMap TagPart.text ++ '"' :: r) = some r
      rw [rest?_interpretedTag, afterQuote_parts]

theorem endsIn_tagText (tag : Option Tag) (hr : EndsIn [';', '\x7d'] r) :
    EndsIn fieldEnds (tagText tag ++ r) :=
  endsIn_of_tagRest? (tagRest?_tagText tag hr) hr

/-! ## Fields -/

theorem rest?_fieldNames_append (first : Identifier) (more : List Identifier) (hr : EndsName r)
    (hc : r.head? ≠ some ',') :
    fieldNames.rest?
      (first.1 ++ more.flatMap (fun name => ',' :: ' ' :: name.1) ++ r) = some r := by
  induction more generalizing first with
  | nil =>
    rw [List.flatMap_nil, List.append_nil, rest?_fieldNames, rest?_identifier_append first hr,
      Option.bind_some, rest?_past?_eq_none hc, Option.elim_none]
  | cons next more ih =>
    have htext : first.1 ++ (next :: more).flatMap (fun name => ',' :: ' ' :: name.1) ++ r =
        first.1 ++ ',' :: ' ' ::
          (next.1 ++ more.flatMap (fun name => ',' :: ' ' :: name.1) ++ r) := by
      simp
    have hskip :
        skipSpaces (' ' :: (next.1 ++ more.flatMap (fun name => ',' :: ' ' :: name.1) ++ r)) =
        next.1 ++ more.flatMap (fun name => ',' :: ' ' :: name.1) ++ r :=
      (((beginsItem_identifier next).append _).append r).skipSpaces
    rw [htext, rest?_fieldNames, rest?_identifier_append first (beginsIn_cons (by decide) _),
      Option.bind_some, rest?_past?_cons, if_pos rfl, Option.elim_some, hskip, ih next]

namespace Taker.ReadsTypes

variable {good : TypeTree → Prop}

/-- Behind an embedded type no other type follows, so it is not taken for the names of a field. -/
theorem namedField_embedded (ht : t.ReadsTypes good) (pointer : Bool) (name : TypeName)
    (arguments : List TypeTree) (hr : EndsIn fieldEnds r) :
    (TypeText.namedField t).rest? ((embeddedType pointer name arguments).text ++ r) = none := by
  have hends : EndsIn closers r := hr.mono (by decide)
  rw [TypeText.namedField, rest?_andThen, rest?_andThen]
  cases pointer with
  | true =>
    rw [embeddedType, if_pos rfl, TypeTree.text_eq, rest?_fieldNames]
    rfl
  | false =>
    obtain ⟨first, more, htext, hmore⟩ := text_named_cases name arguments
    rw [embeddedType, if_neg Bool.false_ne_true, htext, List.append_assoc, rest?_fieldNames,
      rest?_identifier_append first (endsName_append hmore (endsName_of_endsIn hends)),
      Option.bind_some]
    obtain rfl | hdot | hopen := hmore
    · rw [List.nil_append, rest?_past?_eq_none (head?_ne_of_endsIn hr (by decide)),
        Option.elim_none, Option.bind_some]
      cases hb : (past? ' ').rest? r with
      | none => rfl
      | some after =>
        obtain rfl := rest?_past?_eq_some.1 hb
        have hafter : EndsIn closers (skipSpaces after) := by
          rw [EndsIn, skipSpaces_skipSpaces]
          exact hends
        rw [Option.bind_some, rest?_spaced, ht.ends.refuses _ hafter]
    · obtain ⟨more, rfl⟩ := List.head?_eq_some_iff.1 hdot
      rfl
    · obtain ⟨more, rfl⟩ := List.head?_eq_some_iff.1 hopen
      rfl

theorem rest?_namedField (first : Identifier) (more : List Identifier) (type : TypeTree)
    (r : List Char) :
    (TypeText.namedField t).rest?
        (first.1 ++ more.flatMap (fun name => ',' :: ' ' :: name.1) ++ ' ' :: (type.text ++ r)) =
      t.rest? (type.text ++ r) := by
  rw [TypeText.namedField, rest?_andThen, rest?_andThen,
    rest?_fieldNames_append first more (beginsIn_cons (by decide) _) (by simp), Option.bind_some,
    rest?_past?_cons, if_pos rfl, Option.bind_some, rest?_spaced, skipSpaces_text]

/-- Where the type of a field is too high, the first of its names may be taken as a type, but what
follows the name ends no field. -/
theorem name_of_namedField (ht : t.ReadsTypes good) (first : Identifier) (more : List Identifier)
    (type : TypeTree) (r rest : List Char)
    (h : t.rest? (first.1 ++ more.flatMap (fun name => ',' :: ' ' :: name.1) ++
      ' ' :: (type.text ++ r)) = some rest) :
    ¬ EndsIn fieldEnds rest := by
  intro hends
  cases more with
  | nil =>
    rw [List.flatMap_nil, List.append_nil] at h
    have hname :=
      rest?_identifier_append first (r := ' ' :: (type.text ++ r)) (beginsIn_cons (by decide) _)
    obtain rfl := ht.ends.name _ _ hname (.inl rfl) rest h
    exact not_endsIn_blank type r (hends.mono (by decide))
  | cons next more =>
    rw [List.flatMap_cons, List.append_assoc, List.append_assoc, List.cons_append] at h
    have hname (behind : List Char) :=
      rest?_identifier_append first (r := ',' :: behind) (beginsIn_cons (by decide) _)
    obtain rfl := ht.ends.name _ _ (hname _) (.inr rfl) rest h
    exact absurd (hends ',' rfl) (by decide)

theorem field (ht : t.ReadsTypes good) (field : Field) (hr : EndsIn [';', '\x7d'] r) :
    Decides (TypeText.field t).rest? (EndsIn [';', '\x7d']) (textOf field.fragments) r
      (good field.type) := by
  -- The names and the type are read first, and then the tag, wherever they end.
  have hwhole {s : List Char} {tag : Option Tag} {type : TypeTree}
      (hread : Decides (fun s => ((TypeText.namedField t).rest? s).or (t.rest? s))
        (EndsIn fieldEnds) s (tagText tag ++ r)
        (good type)) :
      Decides (TypeText.field t).rest? (EndsIn [';', '\x7d']) (s ++ tagText tag) r (good type) := by
    have htag : Decides tagRest? (EndsIn [';', '\x7d']) (tagText tag) r True :=
      .of_takes (tagRest?_tagText tag hr) trivial
    exact ((hread.bind htag fun mid rest hn h hl => hn (endsIn_of_tagRest? h hl)).of_eq
      (rest?_field ..)).congr
      (iff_of_eq (and_true _))
  cases field with
  | named first more type tag =>
    have hends := endsIn_tagText tag hr
    have htype := ht.decides type (tagText tag ++ r) (hends.mono (by decide))
    have htext : textOf (Field.named first more type tag).fragments =
        first.1 ++ more.flatMap (fun name => ',' :: ' ' :: name.1) ++ ' ' :: type.text ++
          tagText tag := by
      simp [Field.fragments]
    rw [htext]
    refine hwhole ⟨fun h => ?_, fun h rest hrest => ?_⟩
    · rw [List.append_assoc, List.cons_append, rest?_namedField, htype.takes h, Option.some_or]
    · rw [List.append_assoc, List.cons_append, rest?_namedField] at hrest
      obtain hrest | ⟨-, hrest⟩ := Option.or_eq_some_iff.1 hrest
      · exact fun hends => htype.sticks h rest hrest (hends.mono (by decide))
      · exact ht.name_of_namedField first more type _ rest hrest
  | embedded pointer name arguments tag =>
    have hends := endsIn_tagText tag hr
    have htext : textOf (Field.embedded pointer name arguments tag).fragments =
        (embeddedType pointer name arguments).text ++ tagText tag := by
      simp [Field.fragments]
    rw [htext]
    refine hwhole
      (((ht.decides _ _ (hends.mono (by decide))).mono fun rest h => h.mono (by decide)).of_eq ?_)
    rw [ht.namedField_embedded pointer name arguments hends, Option.none_or]
    rfl

end Taker.ReadsTypes

/-! ## Types -/

theorem take_decides {levels : Nat} (opening : Opening) {word inner : List Char} {type : TypeTree}
    (htext : type.text = word ++ inner)
    (ho : opened? (word ++ (inner ++ r)) = some (opening, inner ++ r))
    (h : Decides (opening.take (take levels)).rest? left inner r ok) :
    Decides (take (levels + 1)).rest? left type.text r ok := by
  refine h.of_eq ?_
  rw [htext, List.append_assoc, rest?_take_opened, ho, Option.elim_some]

theorem opened?_array (length : ArrayLength) (s : List Char) :
    opened? ('[' :: (length.text ++ s)) = some (.array, length.text ++ s) := by
  obtain ⟨c, more, htext, hc⟩ : ∃ c more, length.text = c :: more ∧ Text.isNameChar c = true := by
    cases length with
    | digits first more => exact ⟨_, _, rfl, isNameChar_of_isDigit first.2⟩
    | constant name =>
      obtain ⟨⟨cs, hcs⟩, more, htext, -⟩ := text_typeName_cases name
      cases cs with
      | nil => cases hcs
      | cons c cs => exact ⟨c, cs ++ more, htext, isNameChar_of_mem hcs List.mem_cons_self⟩
  have hne : ¬ ']' = c := by
    rintro rfl
    exact absurd hc (by decide)
  rw [htext, List.cons_append]
  simp [opened?, openings, hne]

theorem arrayLength_decides (length : ArrayLength) (r : List Char) :
    Decides arrayLength.rest? (fun _ => True) length.text (']' :: r) True := by
  refine .of_takes ?_ trivial
  cases length with
  | digits first more =>
    have hdrop : (more.1 ++ ']' :: r).dropWhile Char.isDigit = ']' :: r := by
      rw [List.dropWhile_append_of_pos fun c hc =>
        List.all_eq_true.1 more.2 c hc, List.dropWhile_cons_of_neg (by simp)]
    change arrayLength.rest? (first.1 :: (more.1 ++ ']' :: r)) = _
    rw [rest?_arrayLength_cons, if_pos first.2, hdrop]
  | constant name =>
    obtain ⟨first, more, htext, -⟩ := text_typeName_cases name
    have hname : typeName.rest? (name.text ++ ']' :: r) = some (']' :: r) :=
      rest?_typeName_append name (beginsIn_cons (by decide) _) (by simp)
    obtain ⟨cs, hcs⟩ := first
    cases cs with
    | nil => cases hcs
    | cons c cs =>
      have hdigit : ¬ c.isDigit = true := by
        intro hd
        have hletter := isLetter_of_isDigit hd
        rw [isIdentifierChars, hletter] at hcs
        cases hcs
      rw [htext] at hname
      change arrayLength.rest? (name.text ++ ']' :: r) = _
      rw [htext]
      change arrayLength.rest? (c :: (cs ++ more ++ ']' :: r)) = _
      rw [rest?_arrayLength_cons, if_neg hdigit]
      exact hname

/-- One more level lets types be one higher. -/
theorem take_readsTypes (levels : Nat) :
    (take levels).ReadsTypes fun type => type.height ≤ levels := by
  induction levels with
  | zero =>
    refine ⟨take_endsTypes 0, fun type r _ => ⟨fun h => ?_, fun _ rest hr => ?_⟩⟩
    · exact absurd type.height_pos (Nat.not_lt.2 h)
    · cases hr
  | succ levels ih =>
    refine ⟨take_endsTypes (levels + 1), fun type r hr => ?_⟩
    simp only [TypeTree.height_le_succ_iff]
    have hlast (inner : TypeTree) : Decides (take levels).rest? (EndsIn closers) inner.text r
        (∀ inner' ∈ [inner], inner'.height ≤ levels) :=
      (ih.decides inner r hr).congr (by simp)
    cases type with
    | named name arguments =>
      have hnone : opened? ((TypeTree.named name arguments).text ++ r) = none := by
        obtain ⟨first, more, htext, hmore⟩ := text_named_cases name arguments
        have hname := endsName_append hmore (endsName_of_endsIn hr)
        rw [htext, List.append_assoc]
        exact opened?_eq_none_of_identifier (rest?_identifier_append first hname)
      rw [TypeTree.children_named]
      refine (ih.named name arguments hr).of_eq ?_
      rw [rest?_take_opened, hnone, Option.elim_none]
    | pointer inner => exact take_decides .pointer (TypeTree.text_pointer inner) rfl (hlast inner)
    | slice inner => exact take_decides .slice (TypeTree.text_slice inner) rfl (hlast inner)
    | array length inner =>
      have hlength :=
        (arrayLength_decides length (inner.text ++ r)).andThen (past?_decides fun _ => True)
        fun _ _ hn _ => absurd trivial hn
      have hboth := hlength.andThen (hlast inner) fun _ _ hn _ => absurd trivial hn
      refine take_decides .array (TypeTree.text_array length inner) ?_ (hboth.congr (by simp))
      rw [List.append_assoc, List.append_assoc]
      exact opened?_array length _
    | map key value =>
      have hkey :=
        ih.decides key (']' :: (value.text ++ r)) (endsIn_of_head (c := ']') rfl (by decide))
      have hclosed := hkey.andThen (past?_decides fun _ => True) fun mid rest hn hm => by
        rw [rest?_past?_eq_some.1 hm] at hn
        exact absurd (endsIn_of_head (c := ']') rfl (by decide)) hn
      have hboth := hclosed.andThen (hlast value) fun _ _ hn _ => absurd trivial hn
      exact take_decides .map (TypeTree.text_map key value) rfl (hboth.congr (by simp))
    | channel direction inner =>
      refine take_decides .channel (TypeTree.text_channel direction inner) ?_ (hlast inner)
      cases direction <;> rfl
    | function parameters result =>
      rw [TypeTree.children_function]
      exact take_decides .function (TypeTree.text_function parameters result) rfl
        (ih.signature parameters result hr)
    | interface elements =>
      have hbody :=
        body_decides (fun element r => ih.element element (r := r)) beginsItem_element elements r
      rw [TypeTree.children_interface, List.forall_mem_flatMap]
      exact take_decides .interface
        (TypeTree.text_interface elements) rfl (hbody.mono fun _ _ => trivial)
    | struct fields =>
      have hbody := body_decides (fun field r => ih.field field (r := r)) beginsItem_field fields r
      rw [TypeTree.children_struct, List.forall_mem_map]
      exact take_decides .struct (TypeTree.text_struct fields) rfl (hbody.mono fun _ _ => trivial)

end TypeText

/-- The text of a type is accepted exactly if the type is at most 33 types high. -/
theorem isTypeText_text_iff (type : TypeTree) : isTypeText (String.ofList type.text) = true ↔
    type.height ≤ 33 := by
  have hread : TypeText.Decides (TypeText.take TypeText.maxLevels).rest?
      (TypeText.EndsIn TypeText.closers) type.text []
      (type.height ≤ 33) :=
    (TypeText.take_readsTypes 33).decides type [] (TypeText.endsIn_nil _)
  constructor
  · intro h
    have hrest := TypeText.rest?_of_isTypeText h
    rw [String.toList_ofList, ← List.append_nil type.text] at hrest
    by_contra hn
    exact hread.sticks hn [] hrest (TypeText.endsIn_nil _)
  · intro h
    have htake := hread.takes h
    rw [List.append_nil] at htake
    obtain ⟨rest, hr, hnil⟩ := Option.map_eq_some_iff.1 htake
    rw [isTypeText, String.toList_ofList, hr, Option.any_some, hnil]
    rfl

end SlogHelpers.Source
