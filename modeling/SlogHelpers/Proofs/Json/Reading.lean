import SlogHelpers.Proofs.Json.Leaves
import SlogHelpers.Proofs.Json.Terms

/-!
Every well-formed text is read as what it says, up to the first number that is too large; a text
that spells a value is read as that value, to its end.
-/
namespace SlogHelpers.Json

def Reading.result {α : Type} {s : List Char} (r : Reading α s) : α × Option (List Char) :=
  (r.value, r.rest.map (·.1))

theorem Reading.result_longer {α : Type} {s t : List Char} (h : t.length ≤ s.length)
    (r : Reading α t) :
    (r.longer h).result = r.result := by
  obtain ⟨value, rest⟩ := r
  cases rest <;> rfl

variable {w s t rest : List Char} {c : Char}

/-! ## Values -/

/-- What a value is read as, from its first character on. -/
def resultAt : List Char → Json × Option (List Char)
  | 'n' :: rest => (word .null "ull" rest).result
  | 't' :: rest => (word (.bool true) "rue" rest).result
  | 'f' :: rest => (word (.bool false) "alse" rest).result
  | '"' :: rest =>
    ((string? rest).map fun found => (.string (String.ofList found.1), some found.2)).getD
      (.broken, none)
  | '[' :: rest => let parts := (items true rest).result; (.array parts.1 parts.2.isSome, parts.2)
  | '\x7b' :: rest =>
    let parts := (members true rest).result; (.object parts.1 parts.2.isSome, parts.2)
  | '-' :: rest => (numberValue true rest).result
  | c :: rest => (numberValue false (c :: rest)).result
  | [] => (.broken, none)

theorem result_parts {α β : Type} {make : α → Bool → β} (parts : Reading α t)
    (h : t.length ≤ s.length) :
    (⟨make parts.value parts.rest.isSome, (parts.longer h).rest⟩ : Reading β s).result =
      (make parts.result.1 parts.result.2.isSome, parts.result.2) := by
  obtain ⟨value, rest⟩ := parts
  cases rest <;> rfl

theorem value_result (s : List Char) : (value s).result = resultAt (skipSpace s) := by
  rw [value]
  split <;> rename_i h <;> refine Eq.trans ?_ (congrArg resultAt h).symm
  · exact Reading.result_longer _ _
  · exact Reading.result_longer _ _
  · exact Reading.result_longer _ _
  · rw [resultAt, string?]
    split
    · next hb =>
      rw [hb]
      rfl
    · next hb =>
      rw [hb]
      rfl
  · exact result_parts (items true _) _
  · exact result_parts (members true _) _
  · exact Reading.result_longer _ _
  · rw [Reading.result_longer, resultAt] <;> assumption
  · rfl

/-- The rest of the text, if it is read so far. -/
def upTo (whole : Bool) (rest : List Char) : Option (List Char) := if whole then some rest else none

theorem items_closed {first : Bool} (h : skipSpace s = ']' :: rest) :
    (items first s).result = ([], upTo true rest) := by
  rw [items]
  split
  · next hs => simp [h] at hs
  · next hs =>
    obtain ⟨rfl, rfl⟩ := List.cons.inj (h.symm.trans hs)
    rfl

theorem items_first (h : skipSpace s = c :: rest) (hc : c ≠ ']') :
    (items true s).result = (itemsFrom s).result := by
  rw [items]
  split
  · next hs => simp [h] at hs
  · next hs =>
    obtain ⟨rfl, rfl⟩ := List.cons.inj (h.symm.trans hs)
    rw [if_neg hc, if_pos rfl]

theorem items_comma (h : skipSpace s = ',' :: rest) :
    (items false s).result = (itemsFrom rest).result := by
  rw [items]
  split
  · next hs => simp [h] at hs
  · next hs =>
    obtain ⟨rfl, rfl⟩ := List.cons.inj (h.symm.trans hs)
    rw [if_neg (by decide), if_neg (by decide), if_pos rfl, Reading.result_longer]

/-- A part, and those after it if the text goes on behind it. -/
def followed {α : Type} (part : α) (rest : Option (List Char))
    (more : List Char → List α × Option (List Char)) :
    List α × Option (List Char) :=
  match rest with
  | none => ([part], none)
  | some rest => (part :: (more rest).1, (more rest).2)

theorem itemsFrom_result (s : List Char) :
    (itemsFrom s).result = followed (value s).result.1 (value s).result.2 fun rest =>
      (items false rest).result := by
  rw [itemsFrom]
  split
  · next hv =>
    rw [hv]
    rfl
  · next hv =>
    rw [hv]
    exact Reading.result_longer _ _

theorem members_closed {first : Bool} (h : skipSpace s = '\x7d' :: rest) :
    (members first s).result = ([], upTo true rest) := by
  rw [members]
  split
  · next hs => simp [h] at hs
  · next hs =>
    obtain ⟨rfl, rfl⟩ := List.cons.inj (h.symm.trans hs)
    rfl

theorem members_first (h : skipSpace s = c :: rest) (hc : c ≠ '\x7d') :
    (members true s).result = (membersFrom s).result := by
  rw [members]
  split
  · next hs => simp [h] at hs
  · next hs =>
    obtain ⟨rfl, rfl⟩ := List.cons.inj (h.symm.trans hs)
    rw [if_neg hc, if_pos rfl]

theorem members_comma (h : skipSpace s = ',' :: rest) :
    (members false s).result = (membersFrom rest).result := by
  rw [members]
  split
  · next hs => simp [h] at hs
  · next hs =>
    obtain ⟨rfl, rfl⟩ := List.cons.inj (h.symm.trans hs)
    rw [if_neg (by decide), if_neg (by decide), if_pos rfl, Reading.result_longer]

theorem membersFrom_result {cs afterKey : List Char} (hs : skipSpace s = '"' :: t)
    (hk : string? t = some (cs, afterKey)) (hc : skipSpace afterKey = ':' :: w) :
    (membersFrom s).result =
      followed (String.ofList cs, (value w).result.1) (value w).result.2 fun rest =>
        (members false rest).result := by
  rw [membersFrom]
  split
  · next hs' =>
    obtain ⟨-, rfl⟩ := List.cons.inj (hs.symm.trans hs')
    split
    · next hb =>
      rw [string?, hb] at hk
      cases hk
    · next hb =>
      rw [string?, hb] at hk
      cases hk
      dsimp only
      split
      · next hc' =>
        obtain ⟨-, rfl⟩ := List.cons.inj (hc.symm.trans hc')
        split
        · next hv =>
          rw [hv]
          rfl
        · next hv =>
          rw [hv]
          exact Reading.result_longer _ _
      · next hne => exact absurd hc (hne _)
  · next hne => exact absurd hs (hne _)

/-! ## Passages -/

theorem followed_upTo {α : Type} {part : α} {parts : List α} {first others : Bool}
    {after : List Char}
    {more : List Char → List α × Option (List Char)} (h : more after = (parts, upTo others rest)) :
    followed part (upTo first after) more =
      (part :: if first then parts else [], upTo (first && others) rest) := by
  cases first with
  | false => rfl
  | true =>
    rw [upTo, if_pos rfl, followed, h]
    rfl

theorem word_result (json : Json) {ending : String} (h : ending.toList ≠ []) :
    (word json ending (ending.toList ++ s)).result = (json, some s) := by
  have hp : ending.toList.isPrefixOf (ending.toList ++ s) = true :=
    List.isPrefixOf_iff_prefix.2 (List.prefix_append _ _)
  rw [word, dif_pos ⟨hp, h⟩]
  simp [Reading.result, ← String.length_toList]

theorem numberValue_result {negative : Bool} {number : Option Number}
    (h : number? negative s = number.map (·, rest)) (hlt : rest.length < s.length) :
    (numberValue negative s).result = (number.elim .broken .number, upTo number.isSome rest) := by
  rw [numberValue, h]
  cases number with
  | none => rfl
  | some number =>
    simp only [Option.map_some, dif_pos hlt]
    rfl

theorem resultAt_digit (hc : c.isDigit = true) :
    resultAt (c :: s) = (numberValue false (c :: s)).result := by
  rw [resultAt] <;>
  · rintro rfl
    cases hc

/-- Behind white space, the text begins with the character. -/
def Begins (c : Char) (t : List Char) : Prop :=
  ∃ r, ∀ rest, skipSpace (t ++ rest) = c :: (r ++ rest)

theorem Begins.append (h : Begins c t) (s : List Char) : Begins c (t ++ s) := by
  obtain ⟨r, hr⟩ := h
  exact ⟨r ++ s, fun rest => by rw [List.append_assoc, hr, List.append_assoc]⟩

/-- How a passage is read in front of what may follow it: a value from its first character, which
closes no array; elements and members from the bracket behind them. -/
def Reads : Passage → List Char → Prop
  | .value term, t => (∃ c r, t = c :: r ∧ isSpace c = false ∧ c ≠ ']') ∧
      ∀ rest, Ends rest → resultAt (t ++ rest) = (term.found, upTo term.whole rest)
  | .element term, t => (∃ c, Begins c t ∧ c ≠ ']') ∧
      ∀ rest, Ends rest →
        ∃ after, (value (t ++ rest)).result = (term.found, upTo term.whole after) ∧
          skipSpace after = skipSpace rest
  | .elements items, t => (∃ c, Begins c t ∧ c ≠ ']') ∧
      ∀ rest, (itemsFrom (t ++ ']' :: rest)).result =
        (Term.foundItems items, upTo (Term.wholeItems items) rest)
  | .members members, t => Begins '"' t ∧
      ∀ rest, (membersFrom (t ++ '\x7d' :: rest)).result =
        (Term.foundMembers members, upTo (Term.wholeMembers members) rest)

theorem reads_word {term : Term} (ending : String) (h : ending.toList ≠ []) (hc : isSpace c = false)
    (hne : c ≠ ']')
    (hw : term.whole = true) (hr : ∀ s, resultAt (c :: s) = (word term.found ending s).result) :
    Reads (.value term) (c :: ending.toList) := by
  refine ⟨⟨c, _, rfl, hc, hne⟩, fun rest _ => ?_⟩
  rw [List.cons_append, hr, word_result term.found h, hw]
  rfl

theorem reads_number {n : Numeral} (h : n.WellFormed) : Reads (.value (.number n)) n.text := by
  obtain ⟨d, ds, hd⟩ := List.exists_cons_of_ne_nil h.whole.1
  have hdigit : d.isDigit = true := h.whole.2 d (hd ▸ List.mem_cons_self)
  have hunsigned : n.unsigned =
      d :: (ds ++ n.fraction.elim [] ('.' :: ·) ++ n.exponent.elim [] Exponent.text) := by
    rw [Numeral.unsigned, hd]
    rfl
  have hread : ∀ rest, Ends rest →
      (numberValue n.negative (n.unsigned ++ rest)).result =
        (n.number?.elim .broken .number, upTo n.number?.isSome rest) := by
    refine fun rest hrest => numberValue_result (number?_append h hrest) ?_
    rw [List.length_append, hunsigned, List.length_cons]
    omega
  have htext : n.text = (if n.negative then ['-'] else []) ++ n.unsigned := by
    simp only [Numeral.text, Numeral.unsigned, List.append_assoc]
  cases hneg : n.negative with
  | true =>
    rw [hneg] at htext hread
    rw [htext]
    exact ⟨⟨'-', _, rfl, by decide, by decide⟩, hread⟩
  | false =>
    rw [hneg] at htext hread
    rw [htext, hunsigned]
    rw [hunsigned] at hread
    refine ⟨⟨d, _, rfl, ?_, ?_⟩, fun rest hrest => (resultAt_digit hdigit).trans (hread rest hrest)⟩
    · rw [← Bool.not_eq_true, isSpace_eq_true]
      rintro (rfl | rfl | rfl | rfl) <;> cases hdigit
    · rintro rfl
      cases hdigit

theorem reads_string {string : String} (h : SpelledString string t) :
    Reads (.value (.string string)) t := by
  obtain ⟨h⟩ := h
  refine ⟨⟨'"', _, rfl, by decide, by decide⟩, fun rest _ => ?_⟩
  simp only [List.cons_append, List.append_assoc, List.nil_append, resultAt]
  rw [string?_spelledChars h]
  simp [Term.found, Term.whole, upTo]

theorem reads_element {term : Term} {u : List Char} (hu : Spaces u) (h : Reads (.value term) t)
    (hw : Spaces w) :
    Reads (.element term) (u ++ t ++ w) := by
  obtain ⟨⟨c, r, rfl, hc, hne⟩, hread⟩ := h
  have hskip : ∀ rest, skipSpace (u ++ c :: r ++ w ++ rest) = c :: (r ++ w ++ rest) := by
    intro rest
    rw [List.append_assoc, List.append_assoc, skipSpace_append hu, List.cons_append,
      skipSpace_cons hc, List.append_assoc]
  refine ⟨⟨c, ⟨r ++ w, hskip⟩, hne⟩, fun rest hrest => ⟨w ++ rest, ?_, skipSpace_append hw⟩⟩
  rw [value_result, hskip, List.append_assoc]
  refine hread (w ++ rest) ?_
  cases w with
  | nil => exact hrest
  | cons d w =>
    intro e he
    cases he
    exact .inl (isSpace_eq_true.2 (hw d List.mem_cons_self))

theorem isSome_upTo (whole : Bool) (rest : List Char) : (upTo whole rest).isSome = whole := by
  cases whole <;> rfl

theorem reads_array {items : List Term} (h : Reads (.elements items) t) :
    Reads (.value (.array items)) ('[' :: t ++ [']']) := by
  obtain ⟨⟨c, ⟨r, hskip⟩, hne⟩, hread⟩ := h
  refine ⟨⟨'[', _, rfl, by decide, by decide⟩, fun rest _ => ?_⟩
  simp only [List.cons_append, List.append_assoc, resultAt]
  rw [items_first (hskip _) hne, hread, isSome_upTo]
  rfl

theorem reads_object {members : List (String × Term)} (h : Reads (.members members) t) :
    Reads (.value (.object members)) ('\x7b' :: t ++ ['\x7d']) := by
  obtain ⟨⟨r, hskip⟩, hread⟩ := h
  refine ⟨⟨'\x7b', _, rfl, by decide, by decide⟩, fun rest _ => ?_⟩
  simp only [List.cons_append, List.append_assoc, resultAt]
  rw [members_first (hskip _) (by decide), hread, isSome_upTo]
  rfl

theorem ends_cons (h : c = ',' ∨ c = ']' ∨ c = '\x7d') : Ends (c :: s) := by
  intro d hd
  cases hd
  exact .inr h

/-- A member as it is read: its name, then its value. -/
theorem membersFrom_member {name : String} {term : Term} {u k : List Char} (hu : Spaces u)
    (hk : SpelledString name k) (hw : Spaces w) (h : Reads (.element term) t) (hs : Ends s) :
    ∃ after, skipSpace after = skipSpace s ∧
      (membersFrom (u ++ k ++ w ++ ':' :: t ++ s)).result =
        followed (name, term.found) (upTo term.whole after) fun rest =>
          (members false rest).result := by
  obtain ⟨after, hvalue, hafter⟩ := h.2 s hs
  refine ⟨after, hafter, ?_⟩
  cases hk with
  | @quoted body hk =>
    have hstart : skipSpace (u ++ ('"' :: body ++ ['"']) ++ w ++ ':' :: t ++ s) =
        '"' :: (body ++ '"' :: (w ++ ':' :: (t ++ s))) := by
      simp only [List.append_assoc, List.cons_append, skipSpace_append hu]
      rfl
    have hcolon : skipSpace (w ++ ':' :: (t ++ s)) = ':' :: (t ++ s) := by
      rw [skipSpace_append hw]
      rfl
    rw [membersFrom_result hstart (string?_spelledChars hk) hcolon, hvalue, String.ofList_toList]

theorem begins_name {name : String} {u k : List Char} (hu : Spaces u) (hk : SpelledString name k) :
    Begins '"' (u ++ k) := by
  cases hk with
  | @quoted t hk =>
    refine ⟨t ++ ['"'], fun rest => ?_⟩
    rw [List.append_assoc, skipSpace_append hu]
    rfl

theorem reads_of_writes {passage : Passage} (h : Writes passage t) : Reads passage t := by
  induction h with
  | null => exact reads_word "ull" (by decide) (by decide) (by decide) rfl fun _ => rfl
  | true => exact reads_word "rue" (by decide) (by decide) (by decide) rfl fun _ => rfl
  | false => exact reads_word "alse" (by decide) (by decide) (by decide) rfl fun _ => rfl
  | number h => exact reads_number h
  | string h => exact reads_string h
  | emptyArray hw =>
    refine ⟨⟨'[', _, rfl, by decide, by decide⟩, fun rest _ => ?_⟩
    simp only [List.cons_append, List.append_assoc, resultAt]
    rw [items_closed (skipSpace_append hw)]
    rfl
  | array _ ih => exact reads_array ih
  | emptyObject hw =>
    refine ⟨⟨'\x7b', _, rfl, by decide, by decide⟩, fun rest _ => ?_⟩
    simp only [List.cons_append, List.append_assoc, resultAt]
    rw [members_closed (skipSpace_append hw)]
    rfl
  | object _ ih => exact reads_object ih
  | element hu _ hw ih => exact reads_element hu ih hw
  | lastElement _ ih =>
    refine ⟨ih.1, fun rest => ?_⟩
    obtain ⟨after, hvalue, hafter⟩ := ih.2 (']' :: rest) (ends_cons (.inr (.inl rfl)))
    rw [itemsFrom_result, hvalue]
    exact followed_upTo (items_closed hafter)
  | @moreElements _ _ _ ts _ _ ih ihs =>
    obtain ⟨c, hc, hne⟩ := ih.1
    refine ⟨⟨c, hc.append _, hne⟩, fun rest => ?_⟩
    obtain ⟨after, hvalue, hafter⟩ := ih.2 (',' :: (ts ++ ']' :: rest)) (ends_cons (.inl rfl))
    rw [List.append_assoc, List.cons_append, itemsFrom_result, hvalue]
    exact followed_upTo ((items_comma hafter).trans (ihs.2 rest))
  | lastMember hu hk hw _ ih =>
    refine ⟨((begins_name hu hk).append _).append _, fun rest => ?_⟩
    obtain ⟨after, hafter, hread⟩ := membersFrom_member hu hk hw ih (ends_cons (.inr (.inr rfl)))
    rw [hread]
    exact followed_upTo (members_closed hafter)
  | moreMembers hu hk hw _ _ ih ihs =>
    refine ⟨(((begins_name hu hk).append _).append _).append _, fun rest => ?_⟩
    obtain ⟨after, hafter, hread⟩ := membersFrom_member hu hk hw ih (ends_cons (.inl rfl))
    rw [List.append_assoc, List.cons_append, hread]
    exact followed_upTo ((members_comma hafter).trans (ihs.2 rest))

/-! ## Whole texts -/

theorem read_of_said {term : Term} (h : Says t term) : read t = (term.found, term.whole) := by
  obtain ⟨after, hvalue, hafter⟩ := (reads_of_writes h).2 [] (by rintro c ⟨⟩)
  rw [List.append_nil] at hvalue
  rw [read]
  split
  · next hv =>
    rw [hv] at hvalue
    cases hw : term.whole with
    | false =>
      rw [hw] at hvalue
      cases hvalue
      rfl
    | true =>
      rw [hw] at hvalue
      cases hvalue
  · next hv =>
    rw [hv] at hvalue
    cases hw : term.whole with
    | false =>
      rw [hw] at hvalue
      cases hvalue
    | true =>
      rw [hw] at hvalue
      cases hvalue
      rw [hafter]
      rfl

/-- A text that spells a value is read as that value, to its end. -/
theorem read_of_spells {json : Json} (h : Spells t json) : read t = (json, true) := by
  obtain ⟨term, hsays, rfl, hwhole⟩ := saidBy_of_spelled h
  rw [read_of_said hsays, hwhole]

end SlogHelpers.Json
