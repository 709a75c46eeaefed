import SlogHelpers.Proofs.Source.Delimited
import SlogHelpers.Proofs.Source.TypeInContext
import SlogHelpers.Proofs.Source.TypeTree

/-!
Readers that take exactly a text or come to nothing that could be left of it: one after the other,
and for the items of a list. What the texts of type trees begin with, by which the readers tell them
apart.
-/
namespace SlogHelpers.Source

namespace TypeText

variable {t u v : Taker} {s s' r : List Char} {ok ok' : Prop} {left between : List Char → Prop}
  {c : Char}

/-! ## Readers that decide -/

/-- In front of this rest the reader takes exactly the text if all is well with it. If not, it does
not come to anything that could be left. -/
structure Decides (read : List Char → Option (List Char)) (left : List Char → Prop)
    (s r : List Char) (ok : Prop) :
    Prop where
  takes : ok → read (s ++ r) = some r
  sticks : ¬ ok → ∀ rest, read (s ++ r) = some rest → ¬ left rest

namespace Decides

variable {read further : List Char → Option (List Char)}

theorem mono (h : Decides read between s r ok) (hl : ∀ rest, left rest → between rest) :
    Decides read left s r ok :=
  ⟨h.takes, fun hok rest hr hleft => h.sticks hok rest hr (hl rest hleft)⟩

theorem congr (h : Decides read left s r ok) (hok : ok ↔ ok') : Decides read left s r ok' :=
  ⟨fun h' => h.takes (hok.2 h'), fun h' => h.sticks fun ho => h' (hok.1 ho)⟩

theorem of_takes (h : read (s ++ r) = some r) (hok : ok) : Decides read left s r ok :=
  ⟨fun _ => h, fun hn => absurd hok hn⟩

theorem of_eq (h : Decides read left s r ok) (he : further (s' ++ r) = read (s ++ r)) :
    Decides further left s' r ok :=
  ⟨fun hok => he.trans (h.takes hok), fun hok rest hr => h.sticks hok rest (he.symm.trans hr)⟩

/-- Where the first reader leaves what it should not, the further one must not mend it. -/
theorem bind (h : Decides read between s (s' ++ r) ok) (hf : Decides further left s' r ok')
    (hmid : ∀ mid rest, ¬ between mid → further mid = some rest → ¬ left rest) :
    Decides (fun s => (read s).bind further) left (s ++ s') r (ok ∧ ok') := by
  constructor
  · intro hok
    rw [List.append_assoc, h.takes hok.1, Option.bind_some, hf.takes hok.2]
  · intro hn rest hr
    rw [List.append_assoc] at hr
    obtain ⟨mid, hm, hr⟩ := Option.bind_eq_some_iff.1 hr
    by_cases hok : ok
    · rw [h.takes hok] at hm
      obtain rfl := Option.some.inj hm
      exact hf.sticks (fun hok' => hn ⟨hok, hok'⟩) rest hr
    · exact hmid mid rest (h.sticks hok mid hm) hr

theorem andThen (ht : Decides t.rest? between s (s' ++ r) ok) (hu : Decides u.rest? left s' r ok')
    (hmid : ∀ mid rest, ¬ between mid → u.rest? mid = some rest → ¬ left rest) :
    Decides (t.andThen u).rest? left (s ++ s') r (ok ∧ ok') :=
  (ht.bind hu hmid).of_eq (Taker.rest?_andThen ..)

theorem headed (ht : t.rest? (s ++ (s' ++ r)) = some (s' ++ r))
    (hu : Decides u.rest? left s' r ok) :
    Decides (Taker.headed t u v).rest? left (s ++ s') r ok :=
  hu.of_eq (by rw [Taker.rest?_headed, List.append_assoc, ht, Option.elim_some])

theorem headless (ht : t.rest? (s ++ r) = none) (hv : Decides v.rest? left s r ok) :
    Decides (Taker.headed t u v).rest? left s r ok :=
  hv.of_eq (by rw [Taker.rest?_headed, ht, Option.elim_none])

end Decides

theorem past?_decides (left : List Char → Prop) : Decides (past? c).rest? left [c] r True :=
  .of_takes (rest?_past?_eq_some.2 rfl) trivial

theorem rest?_past?_eq_none (h : s.head? ≠ some c) : (past? c).rest? s = none := by
  cases hp : (past? c).rest? s with
  | none => rfl
  | some rest =>
    rw [rest?_past?_eq_some.1 hp] at h
    exact absurd rfl h

/-! ## Names -/

theorem rest?_identifier_append (name : Identifier) (hr : EndsName r) :
    identifier.rest? (name.1 ++ r) = some r := by
  rw [rest?_identifier, takeWhile_identifier_append name.2 hr, if_pos name.2,
    dropWhile_identifier_append name.2 hr]

theorem rest?_typeName_append (name : TypeName) (hr : EndsName r) (hd : r.head? ≠ some '.') :
    typeName.rest? (name.text ++ r) = some r := by
  obtain ⟨package, name⟩ := name
  rw [typeName, Taker.rest?_extendedBy]
  cases package with
  | none =>
    change (identifier.rest? (name.1 ++ r)).bind _ = _
    rw [rest?_identifier_append name hr, Option.bind_some, rest?_past?_eq_none hd, Option.elim_none]
  | some package =>
    have htext : TypeName.text ⟨some package, name⟩ ++ r = package.1 ++ '.' :: (name.1 ++ r) := by
      simp [TypeName.text]
    have hdot : (past? '.').rest? ('.' :: (name.1 ++ r)) = some (name.1 ++ r) :=
      rest?_past?_eq_some.2 rfl
    rw [htext, rest?_identifier_append package (beginsIn_cons (by decide) _),
      Option.bind_some, hdot, Option.elim_some, rest?_identifier_append name hr]

theorem rest?_identifier_keyword {word : List Char}
    (hw : isIdentifierChars (word.takeWhile Text.isNameChar) = false)
    (hc : Text.isNameChar c = false) (s : List Char) :
    identifier.rest? (word ++ c :: s) = none := by
  rw [rest?_identifier, Lists.takeWhile_append_cons_of_neg hc, hw, if_neg Bool.false_ne_true]

/-! ## What the text of a type begins with -/

def startsType (c : Char) : Bool := Text.isNameChar c || c == '*' || c == '[' || c == '<'

theorem identifier_starts (name : Identifier) :
    ∃ c more, name.1 = c :: more ∧ startsType c = true := by
  obtain ⟨cs, h⟩ := name
  cases cs with
  | nil => cases h
  | cons c cs =>
    have hc := isNameChar_of_mem h List.mem_cons_self
    exact ⟨c, cs, rfl, by simp [startsType, hc]⟩

theorem text_typeName_cases (name : TypeName) :
    ∃ (first : Identifier) (more : List Char), name.text = first.1 ++ more ∧
      (more = [] ∨ more.head? = some '.') := by
  obtain ⟨package, name⟩ := name
  cases package with
  | none => exact ⟨name, [], by simp [TypeName.text], .inl rfl⟩
  | some package => exact ⟨package, '.' :: name.1, by simp [TypeName.text], .inr rfl⟩

/-- A named type is a name alone, or an identifier with a dot or a bracket behind it. -/
theorem text_named_cases (name : TypeName) (arguments : List TypeTree) :
    ∃ (first : Identifier) (more : List Char),
      (TypeTree.named name arguments).text = first.1 ++ more ∧
      (more = [] ∨ more.head? = some '.' ∨ more.head? = some '[') := by
  obtain ⟨first, more, hname, hmore⟩ := text_typeName_cases name
  rw [TypeTree.text_eq]
  cases arguments with
  | nil => exact ⟨first, more, by simp [TypeTree.fragments, hname], hmore.imp_right .inl⟩
  | cons argument arguments =>
    refine ⟨first, more ++ '[' ::
      (textOf (commaList ((argument :: arguments).map fun type => [.type type])) ++ [']']), ?_, ?_⟩
    · simp [TypeTree.fragments, hname]
    · obtain rfl | hdot := hmore
      · exact .inr (.inr rfl)
      · refine .inr (.inl ?_)
        rw [List.head?_append, hdot, Option.some_or]

theorem endsName_append {more : List Char}
    (hmore : more = [] ∨ more.head? = some '.' ∨ more.head? = some '[')
    (hr : EndsName r) : EndsName (more ++ r) := by
  obtain rfl | hdot | hopen := hmore
  · exact hr
  · obtain ⟨more, rfl⟩ := List.head?_eq_some_iff.1 hdot
    exact beginsIn_cons (by decide) _
  · obtain ⟨more, rfl⟩ := List.head?_eq_some_iff.1 hopen
    exact beginsIn_cons (by decide) _

theorem text_starts (type : TypeTree) : ∃ c more, type.text = c :: more ∧ startsType c = true := by
  cases type with
  | named name arguments =>
    obtain ⟨first, more, htext, -⟩ := text_named_cases name arguments
    obtain ⟨c, cs, hfirst, hc⟩ := identifier_starts first
    exact ⟨c, cs ++ more, by rw [htext, hfirst, List.cons_append], hc⟩
  | channel direction type =>
    rw [TypeTree.text_eq]
    cases direction <;> exact ⟨_, _, rfl, by decide⟩
  | _ =>
    rw [TypeTree.text_eq]
    exact ⟨_, _, rfl, by decide⟩

/-- The text begins as items of lists do: not with a space, and not with what closes the list. -/
def BeginsItem (s : List Char) : Prop :=
  ∃ c more, s = c :: more ∧ (startsType c || c == '.' || c == '~') = true

namespace BeginsItem

theorem of_starts (hc : startsType c = true) (s : List Char) : BeginsItem (c :: s) :=
  ⟨c, s, rfl, by rw [hc]; rfl⟩

theorem append (h : BeginsItem s) (r : List Char) : BeginsItem (s ++ r) := by
  obtain ⟨c, more, rfl, hc⟩ := h
  exact ⟨c, more ++ r, rfl, hc⟩

theorem head?_ne (h : BeginsItem s) (hc : (startsType c || c == '.' || c == '~') = false) :
    s.head? ≠ some c := by
  obtain ⟨d, more, rfl, hd⟩ := h
  intro he
  rw [List.head?_cons] at he
  rw [← Option.some.inj he, hd] at hc
  cases hc

theorem skipSpaces (h : BeginsItem s) : TypeText.skipSpaces s = s := by
  obtain ⟨c, more, rfl, hc⟩ := h
  have hc : BeginsItem (c :: more) := ⟨c, more, rfl, hc⟩
  refine skipSpaces_cons_of_ne ⟨?_, ?_⟩ more
  · rintro rfl
    exact hc.head?_ne (by decide) rfl
  · rintro rfl
    exact hc.head?_ne (by decide) rfl

theorem intercalate {α : Type} {text : α → List Char} (h : ∀ a, BeginsItem (text a))
    (separator : List Char) (first : α)
    (more : List α) : BeginsItem (separator.intercalate ((first :: more).map text)) := by
  cases more with
  | nil => simpa using h first
  | cons next more =>
    rw [List.map_cons, List.map_cons, List.intercalate_cons_cons, List.append_assoc]
    exact (h first).append _

end BeginsItem

theorem beginsItem_identifier (name : Identifier) : BeginsItem name.1 := by
  obtain ⟨c, more, hname, hc⟩ := identifier_starts name
  rw [hname]
  exact .of_starts hc more

theorem beginsItem_text (type : TypeTree) : BeginsItem type.text := by
  obtain ⟨c, more, htext, hc⟩ := text_starts type
  rw [htext]
  exact .of_starts hc more

theorem skipSpaces_text (type : TypeTree) (r : List Char) :
    skipSpaces (type.text ++ r) = type.text ++ r :=
  ((beginsItem_text type).append r).skipSpaces

/-- No type begins like something that may follow a type. -/
theorem not_endsIn_text (type : TypeTree) (r : List Char) : ¬ EndsIn closers (type.text ++ r) := by
  have hall : closers.all (fun c => !startsType c) = true := by decide
  obtain ⟨c, more, htext, hc⟩ := text_starts type
  intro h
  have hm := List.all_eq_true.1 hall c (h c (by rw [skipSpaces_text, htext]; rfl))
  rw [hc] at hm
  cases hm

theorem not_endsIn_blank (type : TypeTree) (r : List Char) :
    ¬ EndsIn closers (' ' :: (type.text ++ r)) :=
  not_endsIn_text type r

theorem strip_text {word : List Char} (hw : startsType c = false) (type : TypeTree)
    (r : List Char) :
    (strip (c :: word) (type.text ++ r)).1 = type.text ++ r := by
  obtain ⟨d, more, htext, hd⟩ := text_starts type
  have hne : (c == d) = false := by
    refine beq_false_of_ne ?_
    rintro rfl
    rw [hw] at hd
    cases hd
  have hp : (c :: word).isPrefixOf (type.text ++ r) = false := by
    rw [htext, List.cons_append, List.isPrefixOf_cons_cons, hne, Bool.false_and]
  simp [strip, strip?, hp]

theorem endsName_of_endsIn (h : EndsIn closers r) : EndsName r := by
  intro c hc
  obtain ⟨more, rfl⟩ := List.head?_eq_some_iff.1 hc
  exact h.isNameChar

theorem head?_ne_of_endsIn {marks : List Char} (h : EndsIn marks r)
    (hc : c ∉ ' ' :: '\t' :: marks) : r.head? ≠ some c := by
  intro hr
  obtain ⟨more, rfl⟩ := List.head?_eq_some_iff.1 hr
  exact hc h.head_mem

/-- Only of a name alone the text is an identifier with nothing but the rest behind it. -/
theorem rest?_identifier_past?_text {d : Char} (hd : d ≠ '.' ∧ d ≠ '[') (hr : EndsName r)
    (hrd : r.head? ≠ some d)
    (type : TypeTree) : (identifier.andThen (past? d)).rest? (type.text ++ r) = none := by
  rw [Taker.rest?_andThen]
  have hkeyword (word : List Char) {c : Char}
      (hw : isIdentifierChars (word.takeWhile Text.isNameChar) = false)
      (hc : Text.isNameChar c = false) (more : List Char) :
      (identifier.rest? (word ++ c :: more)).bind (past? d).rest? = none := by
    rw [rest?_identifier_keyword hw hc, Option.bind_none]
  cases type with
  | named name arguments =>
    obtain ⟨first, more, htext, hmore⟩ := text_named_cases name arguments
    have hhead : (more ++ r).head? ≠ some d := by
      obtain rfl | hdot | hopen := hmore
      · exact hrd
      · simp [hdot, Ne.symm hd.1]
      · simp [hopen, Ne.symm hd.2]
    rw [htext, List.append_assoc, rest?_identifier_append first (endsName_append hmore hr),
      Option.bind_some, rest?_past?_eq_none hhead]
  | pointer type =>
    rw [TypeTree.text_eq]
    exact hkeyword [] rfl (by decide) _
  | slice type =>
    rw [TypeTree.text_eq]
    exact hkeyword [] rfl (by decide) _
  | array length type =>
    rw [TypeTree.text_eq]
    exact hkeyword [] rfl (by decide) _
  | map key value =>
    rw [TypeTree.text_eq]
    exact hkeyword ['m', 'a', 'p'] (by decide) (by decide) _
  | channel direction type =>
    rw [TypeTree.text_eq]
    cases direction with
    | both => exact hkeyword ['c', 'h', 'a', 'n'] (by decide) (by decide) _
    | receive => exact hkeyword [] rfl (by decide) _
    | send => exact hkeyword ['c', 'h', 'a', 'n'] (by decide) (by decide) _
  | function parameters result =>
    rw [TypeTree.text_eq]
    exact hkeyword ['f', 'u', 'n', 'c'] (by decide) (by decide) _
  | interface elements =>
    rw [TypeTree.text_eq]
    exact hkeyword ['i', 'n', 't', 'e', 'r', 'f', 'a', 'c', 'e'] (by decide) (by decide) _
  | struct fields =>
    rw [TypeTree.text_eq]
    exact hkeyword ['s', 't', 'r', 'u', 'c', 't'] (by decide) (by decide) _

/-! ## Items -/

section Items

variable {α : Type} {item : Taker} {separator close : Char} {text : α → List Char} {good : α → Prop}
  {follows : List Char → Prop} {tail : List Char}

theorem rest?_itemsThen_append (hclose : (past? close).rest? (s ++ r) = none) :
    (itemsThen item separator close).rest? (s ++ r) = (item.rest? (s ++ r)).bind fun rest =>
      ((past? close).rest? (skipSpaces rest)).or
        (((past? separator).rest? (skipSpaces rest)).bind fun after =>
        (itemsThen item separator close).rest? (skipSpaces after)) := by
  rw [rest?_itemsThen, hclose, Option.none_or]

theorem rest?_itemsThen_stuck (hclose : (past? close).rest? (s ++ r) = none)
    (hs : ∀ rest, item.rest? (s ++ r) = some rest → ¬ EndsIn [separator, close] rest) :
    (itemsThen item separator close).rest? (s ++ r) = none := by
  rw [rest?_itemsThen_append hclose, Option.bind_eq_none_iff]
  intro rest hrest
  have hends := hs rest hrest
  rw [rest?_past?_eq_none fun h => hends (endsIn_of_head h (by simp)), Option.none_or,
    rest?_past?_eq_none fun h => hends (endsIn_of_head h (by simp)), Option.bind_none]

/-- Items with separators between them and the closing character behind the last. -/
theorem itemsThen_decides
    (hitem : ∀ a r, follows r → Decides item.rest? (EndsIn [separator, close]) (text a) r (good a))
    (hstart : ∀ a, BeginsItem (text a))
    (hc : (startsType close || close == '.' || close == '~') = false)
    (hseparator : separator ≠ ' ' ∧ separator ≠ '\t' ∧ separator ≠ close)
    (hfollows : ∀ s, follows (separator :: ' ' :: s)) (htail : follows (tail ++ r))
    (hclose : skipSpaces (tail ++ r) = close :: r) (first : α) (more : List α) :
    Decides (itemsThen item separator close).rest? (fun _ => True)
      ([separator, ' '].intercalate ((first :: more).map text) ++ tail) r
        (∀ a ∈ first :: more, good a) := by
  have hopen (a : α) (s : List Char) : (past? close).rest? (text a ++ s) = none :=
    rest?_past?_eq_none (((hstart a).append s).head?_ne hc)
  have hstuck {a : α} {s : List Char} (ha : ¬ good a) (hs : follows s) :
      (itemsThen item separator close).rest? (text a ++ s) = none :=
    rest?_itemsThen_stuck (hopen a s) ((hitem a s hs).sticks ha)
  induction more generalizing first with
  | nil =>
    rw [List.map_cons, List.map_nil, List.intercalate_singleton]
    refine ⟨fun h => ?_, fun h rest hr => ?_⟩
    · rw [List.append_assoc, rest?_itemsThen_append (hopen first _),
        (hitem first _ htail).takes (h first List.mem_cons_self), Option.bind_some, hclose,
        rest?_past?_cons, if_pos rfl, Option.some_or]
    · have hfirst : ¬ good first := fun hf => h (List.forall_mem_singleton.2 hf)
      rw [List.append_assoc, hstuck hfirst htail] at hr
      cases hr
  | cons next more ih =>
    have htext :
        [separator, ' '].intercalate ((first :: next :: more).map text) ++ tail ++ r = text first ++
        separator :: ' ' ::
          ([separator, ' '].intercalate ((next :: more).map text) ++ tail ++ r) := by
      simp [List.intercalate_cons_cons]
    have hskip :
        skipSpaces (' ' :: ([separator, ' '].intercalate ((next :: more).map text) ++ tail ++ r)) =
        [separator, ' '].intercalate ((next :: more).map text) ++ tail ++ r := by
      rw [skipSpaces_blank, List.append_assoc]
      exact ((BeginsItem.intercalate hstart _ next more).append _).skipSpaces
    have hread (hf : good first) :
        (itemsThen item separator close).rest?
          ([separator, ' '].intercalate ((first :: next :: more).map text) ++ tail ++ r) =
        (itemsThen item separator close).rest?
          ([separator, ' '].intercalate ((next :: more).map text) ++ tail ++ r) := by
      rw [htext, rest?_itemsThen_append (hopen first _), (hitem first _ (hfollows _)).takes hf,
        Option.bind_some, skipSpaces_cons_of_ne ⟨hseparator.1, hseparator.2.1⟩, rest?_past?_cons,
        if_neg hseparator.2.2, Option.none_or, rest?_past?_cons, if_pos rfl,
        Option.bind_some, hskip]
    refine ⟨fun h => ?_, fun h rest hr => ?_⟩
    · obtain ⟨hf, hn⟩ := List.forall_mem_cons.1 h
      rw [hread hf, (ih next).takes hn]
    · by_cases hf : good first
      · rw [hread hf] at hr
        exact (ih next).sticks (fun hn => h (List.forall_mem_cons.2 ⟨hf, hn⟩)) rest hr
      · rw [htext, hstuck hf (hfollows _)] at hr
        cases hr

end Items

theorem body_decides {α : Type} {element : Taker} {fragments : α → List Fragment} {fine : α → Prop}
    (helement : ∀ a r, EndsIn [';', '\x7d'] r →
      Decides element.rest? (EndsIn [';', '\x7d']) (textOf (fragments a)) r (fine a))
    (hstart : ∀ a, BeginsItem (textOf (fragments a))) (as : List α) (r : List Char) :
    Decides (body element).rest? (fun _ => True) (textOf (bodyFragments (as.map fragments))) r
      (∀ a ∈ as, fine a) := by
  cases as with
  | nil =>
    exact .of_takes (by rw [body, Taker.rest?_spaced, rest?_itemsThen]; rfl) (List.forall_mem_nil _)
  | cons first more =>
    have htext : textOf (bodyFragments ((first :: more).map fragments)) ++ r =
        ' ' :: ([';', ' '].intercalate ((first :: more).map fun a => textOf (fragments a)) ++
          [' ', '\x7d'] ++ r) := by
      simp [bodyFragments, Function.comp_def]
    have hitems : Decides (itemsThen element ';' '\x7d').rest? (fun _ => True)
        ([';', ' '].intercalate ((first :: more).map fun a => textOf (fragments a)) ++
          [' ', '\x7d']) r
        (∀ a ∈ first :: more, fine a) :=
      itemsThen_decides helement hstart (by decide) (by decide)
        (fun s => endsIn_of_head (c := ';') rfl (by decide))
        (endsIn_of_head (c := '\x7d') rfl (by decide)) rfl first more
    refine hitems.of_eq ?_
    rw [body, Taker.rest?_spaced, htext, skipSpaces_blank, List.append_assoc,
      ((BeginsItem.intercalate hstart _ first more).append _).skipSpaces]

/-! ## What the items in a type begin with -/

theorem beginsItem_parameter (parameter : Parameter) : BeginsItem (textOf parameter.fragments) := by
  obtain ⟨name, dots, type⟩ := parameter
  cases name with
  | some name => exact ((beginsItem_identifier name).append _).append _
  | none =>
    cases dots with
    | true => exact ⟨'.', _, rfl, by decide⟩
    | false => exact (beginsItem_text type).append _

theorem beginsItem_term (term : Term) : BeginsItem (textOf term.fragments) := by
  obtain ⟨tilde, type⟩ := term
  cases tilde with
  | true => exact ⟨'~', _, rfl, by decide⟩
  | false => exact (beginsItem_text type).append _

theorem beginsItem_element (element : Element) : BeginsItem (textOf element.fragments) := by
  cases element with
  | method name parameters result => exact ((beginsItem_identifier name).append _).append _
  | union first more =>
    rw [Element.fragments, textOf_intercalate, List.map_map]
    exact BeginsItem.intercalate beginsItem_term _ first more

theorem beginsItem_field (field : Field) : BeginsItem (textOf field.fragments) := by
  cases field with
  | named first more type tag => exact (((beginsItem_identifier first).append _).append _).append _
  | embedded pointer name arguments tag => exact (beginsItem_text _).append _

end TypeText

end SlogHelpers.Source
