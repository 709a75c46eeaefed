import SlogHelpers.Proofs.Source.Containment
import SlogHelpers.Proofs.Source.Recovery
import SlogHelpers.Proofs.Source.TypeTreeReading

/-!
Where the text of a type may have line breaks. Outside of tags it has none; in tags, the readers of
types do not look at what stands between back quotes or behind a backslash, and there a line break
goes unseen. So the signature of an attribute's function has as many lines as the tags of its type
make it have.
-/
namespace SlogHelpers.Source

/-- Whether the reader of tags passes over the next character without a look at whether it ends a
line. -/
def Mode.unseen : Mode → Bool
  | .plain => false
  | .raw => true
  | .interpreted escaped => escaped

namespace Reading

variable {r : Reading} {c : Char} {u w word before behind : List Char} {opened : List Bracket}

/-- All line breaks of the word stand where they go unseen. -/
def Hides : Reading → List Char → Prop
  | _, [] => True
  | r, c :: word => (c = '\n' → r.mode.unseen = true) ∧ (r.next c).Hides word

theorem hides_append : r.Hides (u ++ w) ↔ r.Hides u ∧ (r.after u).Hides w := by
  induction u generalizing r with
  | nil => simp [Hides, after]
  | cons c u ih => simp only [List.cons_append, Hides, ih, and_assoc, after, List.foldl_cons]

theorem unseen_of_next (h : (r.next c).mode.unseen = true) :
    r.mode.unseen = true ∨ c = '\x60' ∨ c = '\\' := by
  obtain ⟨opened, mode⟩ := r
  cases mode with
  | raw => exact .inl rfl
  | interpreted escaped =>
    cases escaped with
    | true => exact .inl rfl
    | false =>
      by_cases hc : c = '\\'
      · exact .inr (.inr hc)
      · by_cases hq : c = '"' <;> simp [next, hc, hq, Mode.unseen] at h
  | plain =>
    by_cases hq : c = '\x60'
    · exact .inr (.inl hq)
    · by_cases hi : c = '"'
      · simp [next, hi, Mode.unseen] at h
      · cases ho : Bracket.ofOpening? c <;> cases hb : Bracket.ofClosing? c <;>
          simp [next, hq, hi, ho, hb, Mode.unseen] at h

/-- Only a back quote or a backslash keeps what follows from being seen. -/
theorem mem_of_unseen (h : (after {} before).mode.unseen = true) :
    '\x60' ∈ before ∨ '\\' ∈ before := by
  induction before using List.reverseRecOn with
  | nil => cases h
  | append_singleton before c ih =>
    rw [after_append] at h
    obtain hb | rfl | rfl := unseen_of_next h
    · exact (ih hb).imp (List.mem_append_left _) (List.mem_append_left _)
    · exact .inl (by simp)
    · exact .inr (by simp)

theorem Hides.unseen (h : r.Hides (before ++ '\n' :: behind)) :
    (r.after before).mode.unseen = true :=
  (hides_append.1 h).2.1 rfl

/-- Words that begin and end outside of tags, with their line breaks tucked away, whatever brackets
are open. -/
def tucked : Language Char :=
  {word | ∀ r : Reading, r.mode = .plain → r.Hides word ∧ (r.after word).mode = .plain}

theorem one_le_tucked : 1 ≤ tucked := by
  intro word h r hr
  obtain rfl := h
  exact ⟨trivial, hr⟩

theorem mul_le_tucked {l m : Language Char} (hl : l ≤ tucked) (hm : m ≤ tucked) :
    l * m ≤ tucked := by
  intro word h r hr
  obtain ⟨u, hu, w, hw, rfl⟩ := h
  obtain ⟨hides, hmode⟩ := hl hu r hr
  obtain ⟨hides', hmode'⟩ := hm hw _ hmode
  rw [← after_append] at hmode'
  exact ⟨hides_append.2 ⟨hides, hides'⟩, hmode'⟩

theorem add_le_tucked {l m : Language Char} (hl : l ≤ tucked) (hm : m ≤ tucked) :
    l + m ≤ tucked := by
  intro word h
  obtain h | h := h
  · exact hl h
  · exact hm h

/-! ## Characters -/

/-- Characters that neither end a line nor begin a tag. -/
def isUntagged (c : Char) : Bool := c != '\n' && !tagQuotes.contains c

theorem mode_next_of_untagged (h : isUntagged c = true) (hr : r.mode = .plain) :
    (r.next c).mode = .plain := by
  obtain ⟨-, hq, hi⟩ : c ≠ '\n' ∧ c ≠ '\x60' ∧ c ≠ '"' := by simpa [isUntagged, tagQuotes] using h
  obtain ⟨opened, mode⟩ := r
  obtain rfl := hr
  cases ho : Bracket.ofOpening? c with
  | some b => simp [next, hq, hi, ho]
  | none => cases hc : Bracket.ofClosing? c <;> simp [next, hq, hi, ho, hc]

theorem tucked_of_untagged (h : word.all isUntagged = true) : word ∈ tucked := by
  induction word with
  | nil => exact one_le_tucked rfl
  | cons c word ih =>
    obtain ⟨hc, hw⟩ := Bool.and_eq_true_iff.1 (List.all_cons.symm.trans h)
    intro r hr
    obtain ⟨hides, hmode⟩ := ih hw _ (mode_next_of_untagged hc hr)
    refine ⟨⟨fun he => ?_, hides⟩, hmode⟩
    rw [he] at hc
    exact absurd hc (by decide)

theorem untagged_le_tucked {l : Language Char}
    (h : ∀ word ∈ l, ∀ c ∈ word, isUntagged c = true) : l ≤ tucked :=
  fun word hw => tucked_of_untagged (List.all_eq_true.2 (h word hw))

theorem word_le_tucked (h : word.all isUntagged = true) : ({word} : Language Char) ≤ tucked := by
  intro w hw
  obtain rfl := hw
  exact tucked_of_untagged h

theorem untagged_of_isNameChar (h : Text.isNameChar c = true) : isUntagged c = true := by
  have hs : (['\n', '\x60', '"'].all fun d => !Text.isNameChar d) = true := by decide
  have hc : c ∉ ['\n', '\x60', '"'] := fun hm => by
    have hn := List.all_eq_true.1 hs c hm
    rw [h] at hn
    cases hn
  simpa [isUntagged, tagQuotes] using hc

/-! ## Tags -/

theorem hides_raw (hr : r.mode = .raw) {body : List Char} (h : ∀ c ∈ body, c ≠ '\x60') :
    r.Hides (body ++ ['\x60']) ∧ (r.after (body ++ ['\x60'])).mode = .plain := by
  induction body with
  | nil => exact ⟨⟨fun he => absurd he (by decide), trivial⟩, by simp [after, next, hr]⟩
  | cons c body ih =>
    obtain ⟨hc, hb⟩ := List.forall_mem_cons.1 h
    obtain ⟨hides, hmode⟩ := ih hb
    have hn : r.next c = r := by simp [next, hr, hc]
    refine ⟨⟨fun _ => by rw [hr]; rfl, ?_⟩, ?_⟩
    · rw [hn]
      exact hides
    · rw [List.cons_append, after, List.foldl_cons, hn]
      exact hmode

/-- A line break that is not behind a backslash is the end of the reading. -/
theorem hides_interpreted {escaped : Bool} (hr : r.mode = .interpreted escaped)
    (h : TypeText.afterQuote escaped word = some []) :
    r.Hides word ∧ (r.after word).mode = .plain := by
  induction word generalizing r escaped with
  | nil => cases h
  | cons c word ih =>
    rw [TypeText.afterQuote] at h
    split at h
    · next he =>
      subst he
      obtain ⟨hides, hmode⟩ := ih (r := r.next c) (by simp [next, hr]) h
      exact ⟨⟨fun _ => by rw [hr]; rfl, hides⟩, hmode⟩
    · next he =>
      obtain rfl : escaped = false := by simpa using he
      split at h
      · next hc =>
        obtain ⟨hides, hmode⟩ := ih (r := r.next c) (by simp [next, hr, hc]) h
        exact ⟨⟨fun hb => absurd (hc.symm.trans hb) (by decide), hides⟩, hmode⟩
      · next hc =>
        split at h
        · next hq =>
          cases h
          exact ⟨⟨fun hb => absurd (hq.symm.trans hb) (by decide), trivial⟩,
            by simp [after, next, hr, hq]⟩
        · next hq =>
          split at h
          · cases h
          · next hb =>
            obtain ⟨hides, hmode⟩ := ih (r := r.next c) (by simp [next, hr, hc, hq]) h
            exact ⟨⟨fun he => absurd he hb, hides⟩, hmode⟩

end Reading

namespace TypeText
open Reading

variable {t : Taker}

theorem blanks_le_tucked : blanks ≤ tucked := by
  refine untagged_le_tucked fun word hw c hc => ?_
  obtain rfl | rfl := hw c hc
  · decide
  · decide

theorem identifiers_le_tucked : identifiers ≤ tucked :=
  untagged_le_tucked fun _ hw _ hc => untagged_of_isNameChar (isNameChar_of_mem hw hc)

theorem numerals_le_tucked : numerals ≤ tucked :=
  untagged_le_tucked fun _ hw c hc => untagged_of_isNameChar (isNameChar_of_isDigit (hw.2 c hc))

theorem typeNames_le_tucked : typeNames ≤ tucked :=
  add_le_tucked identifiers_le_tucked
    (mul_le_tucked
      (mul_le_tucked identifiers_le_tucked (word_le_tucked (by decide))) identifiers_le_tucked)

theorem optional_le_tucked {word : List Char} (h : word.all isUntagged = true) :
    optional word ≤ tucked :=
  add_le_tucked one_le_tucked (word_le_tucked h)

theorem tags_le_tucked : tags ≤ tucked := by
  have hraw : ({['\x60']} : Language Char) * rawTags ≤ tucked := by
    intro word h r hr
    obtain ⟨q, rfl, w, ⟨body, hbody, rfl⟩, rfl⟩ := h
    obtain ⟨hides, hmode⟩ := hides_raw (r := r.next '\x60') (by simp [next, hr]) hbody
    exact ⟨⟨fun he => absurd he (by decide), hides⟩, hmode⟩
  have hinterpreted : ({['"']} : Language Char) * interpretedTags ≤ tucked := by
    intro word h r hr
    obtain ⟨q, rfl, w, hw, rfl⟩ := h
    obtain ⟨hides, hmode⟩ := hides_interpreted (r := r.next '"') (by simp [next, hr]) hw
    exact ⟨⟨fun he => absurd he (by decide), hides⟩, hmode⟩
  rw [tags, mul_assoc, mul_assoc]
  exact add_le_tucked (mul_le_tucked blanks_le_tucked hraw)
    (mul_le_tucked blanks_le_tucked hinterpreted)

/-! ## Readers of types -/

/-- What the reader takes off a text has its line breaks tucked away. -/
def Tucks (t : Taker) : Prop := t.Yields tucked

theorem itemsThen_tucks {item : Taker} {separator close : Char} (hs : isUntagged separator = true)
    (hc : isUntagged close = true) (hi : Tucks item) : Tucks (itemsThen item separator close) := by
  have hclose : ({[close]} : Language Char) ≤ tucked := word_le_tucked (by simp [hc])
  have hseparator : ({[separator]} : Language Char) ≤ tucked := word_le_tucked (by simp [hs])
  have hitem : tucked * blanks ≤ tucked := mul_le_tucked le_rfl blanks_le_tucked
  exact hi.itemsThen hclose (mul_le_tucked hitem hclose)
    (mul_le_tucked (mul_le_tucked (mul_le_tucked hitem hseparator) blanks_le_tucked) le_rfl)

theorem spaced_tucks (ht : Tucks t) : Tucks t.spaced :=
  (Taker.Yields.spaced ht).mono (mul_le_tucked blanks_le_tucked le_rfl)

theorem typeArguments_tucks (ht : Tucks t) : Tucks (typeArguments t) := by
  refine Taker.Yields.typeArguments ht (mul_le_tucked le_rfl (word_le_tucked (by decide))) ?_
  exact mul_le_tucked (mul_le_tucked (mul_le_tucked le_rfl (word_le_tucked (by decide)))
    (optional_le_tucked (by decide))) le_rfl

theorem parameters_tucks (ht : Tucks t) : Tucks (parameters t) := by
  have hvariadic : optional ['.', '.', '.'] * tucked ≤ tucked :=
    mul_le_tucked (optional_le_tucked (by decide)) le_rfl
  have hparameter : Tucks (parameter t) := by
    refine (Taker.Yields.parameter ht).mono (add_le_tucked (mul_le_tucked ?_ ?_) hvariadic)
    · exact mul_le_tucked identifiers_le_tucked (word_le_tucked (by decide))
    · exact mul_le_tucked blanks_le_tucked hvariadic
  exact spaced_tucks (itemsThen_tucks (by decide) (by decide) hparameter)

theorem signature_tucks (ht : Tucks t) : Tucks (signature t) := by
  have hspace : tucked * {[' ']} ≤ tucked := mul_le_tucked le_rfl (word_le_tucked (by decide))
  refine Taker.Yields.signature (parameters_tucks ht) ht le_rfl
    (mul_le_tucked (mul_le_tucked hspace ?_) le_rfl)
    (mul_le_tucked hspace le_rfl)
  exact word_le_tucked (by decide)

theorem body_tucks {element : Taker} (he : Tucks element) : Tucks (body element) :=
  spaced_tucks (itemsThen_tucks (by decide) (by decide) he)

theorem interfaceElement_tucks (ht : Tucks t) : Tucks (interfaceElement t) := by
  have hterm : Tucks (unionTerm t) :=
    (Taker.Yields.marked (by decide) ht).mono
      (mul_le_tucked (optional_le_tucked (by decide)) le_rfl)
  have hbar : tucked * blanks * {['|']} * blanks ≤ tucked :=
    mul_le_tucked (mul_le_tucked (mul_le_tucked le_rfl blanks_le_tucked)
      (word_le_tucked (by decide))) blanks_le_tucked
  have hunion : Tucks (union t) := hterm.union le_rfl (mul_le_tucked hbar le_rfl)
  refine (Taker.Yields.interfaceElement (signature_tucks ht) hunion).mono
    (add_le_tucked (mul_le_tucked ?_ le_rfl) le_rfl)
  exact mul_le_tucked identifiers_le_tucked (word_le_tucked (by decide))

theorem field_tucks (ht : Tucks t) : Tucks (field t) := by
  have hcomma : identifiers * {[',']} * blanks ≤ tucked :=
    mul_le_tucked
      (mul_le_tucked identifiers_le_tucked (word_le_tucked (by decide))) blanks_le_tucked
  have hnames : Tucks fieldNames :=
    Taker.Yields.fieldNames identifiers_le_tucked (mul_le_tucked hcomma le_rfl)
  have hnamed : tucked * {[' ']} * (blanks * tucked) ≤ tucked :=
    mul_le_tucked (mul_le_tucked le_rfl (word_le_tucked (by decide)))
      (mul_le_tucked blanks_le_tucked le_rfl)
  exact ((hnames.namedField ht).field ht).mono (mul_le_tucked (add_le_tucked hnamed le_rfl)
    (add_le_tucked one_le_tucked tags_le_tucked))

theorem named_tucks (ht : Tucks t) : Tucks (named t) :=
  (typeArguments_tucks ht).named.mono (add_le_tucked typeNames_le_tucked
    (mul_le_tucked (mul_le_tucked typeNames_le_tucked (word_le_tucked (by decide))) le_rfl))

theorem opening_take_tucks (ht : Tucks t) (opening : Opening) : Tucks (opening.take t) := by
  have hsquare : (past? ']').Yields tucked := Taker.Yields.past?.mono (word_le_tucked (by decide))
  have hmul : tucked * tucked ≤ tucked := mul_le_tucked le_rfl le_rfl
  have hclosed {u : Taker} (hu : Tucks u) : Tucks ((u.andThen (past? ']')).andThen t) :=
    ((hu.andThen hsquare).andThen ht).mono (mul_le_tucked hmul le_rfl)
  cases opening with
  | pointer => exact ht
  | slice => exact ht
  | map => exact hclosed ht
  | array =>
    exact hclosed
      (Taker.Yields.arrayLength.mono (add_le_tucked numerals_le_tucked typeNames_le_tucked))
  | channel => exact ht
  | function => exact signature_tucks ht
  | interface => exact body_tucks (interfaceElement_tucks ht)
  | struct => exact body_tucks (field_tucks ht)

theorem take_tucks (levels : Nat) : Tucks (take levels) := by
  refine Taker.Yields.take (fun t ht word opening h => ?_) (fun t ht => named_tucks ht) levels
  refine ⟨tucked, opening_take_tucks ht opening, mul_le_tucked (word_le_tucked ?_) le_rfl⟩
  have hall : (openings.all fun entry => entry.1.all isUntagged) = true := by decide
  exact List.all_eq_true.1 hall _ h

end TypeText

theorem hides_of_isTypeText {type : String} (h : isTypeText type = true) :
    Reading.Hides {} type.toList := by
  obtain ⟨word, hw, hs⟩ := TypeText.take_tucks _ _ _ (TypeText.rest?_of_isTypeText h)
  rw [hs, List.append_nil]
  exact (hw {} rfl).1

/-! ## Tags that are accepted -/

def taggedStruct (tag : Tag) : TypeTree :=
  .struct [.named ⟨['V'], by decide⟩ [] (.named ⟨none, ⟨['a', 'n', 'y'], by decide⟩⟩ []) (some tag)]

theorem text_taggedStruct (tag : Tag) :
    (taggedStruct tag).text = "struct\x7b V any ".toList ++ tag.text ++ " \x7d".toList := by
  simp [taggedStruct, TypeTree.text_eq, TypeTree.fragments, TypeName.text, bodyFragments,
    Field.fragments, tagText]

/-- Nothing is asked of what stands between the quotes of a tag. -/
theorem isTypeText_taggedStruct (tag : Tag) :
    isTypeText (String.ofList (taggedStruct tag).text) = true := by
  have hheight : (taggedStruct tag).height ≤ TypeText.maxLevels := by
    refine TypeTree.height_le_succ_iff.2 fun inner hi =>
      TypeTree.height_le_succ_iff.2 fun inner' hi' => ?_
    obtain rfl : inner = .named ⟨none, ⟨['a', 'n', 'y'], by decide⟩⟩ [] := by
      simpa [taggedStruct, Field.type] using hi
    simp at hi'
  have hread := (TypeText.take_readsTypes TypeText.maxLevels).decides (taggedStruct tag) []
      (TypeText.endsIn_nil _)
  have htake := hread.takes hheight
  rw [List.append_nil] at htake
  exact TypeText.isTypeText_of_rest? (by rw [String.toList_ofList, htake])

/-! ## The functions of attributes -/

/-- The text of an attribute's function in front of its body. -/
def signatureText (function type : String) : String :=
  "func " ++ function ++ "(value " ++ type ++ ") slog.Attr \x7b"

theorem toList_attribute_text_of_signature (function key type : String) : ∃ body,
    (Section.attribute function key type).text.toList =
      (signatureText function type).toList ++ "\n\treturn slog.".toList ++ body := by
  refine ⟨(slogConstructor type ++ "(" ++ literal key ++ ", value)\n\x7d\n").toList, ?_⟩
  simp [Section.text, Section.lines, signatureText]

theorem count_signatureText {function : String} (h : isIdentifier function = true) (type : String) :
    (signatureText function type).toList.count '\n' = type.toList.count '\n' := by
  have hf : function.toList.count '\n' = 0 := List.count_eq_zero.2 (newline_not_mem_identifier h)
  simp [signatureText, List.count_append, hf]

variable {v : Vocabulary}

/-- Every section but the first stands behind an empty line. -/
theorem exists_text_in_file {part : Section} (h : part ∈ sections v) (hp : part ≠ .header) :
    ∃ before behind,
    (fileText (sections v)).toList = before ++ '\n' :: part.text.toList ++ behind := by
  obtain ⟨parts, hparts⟩ : ∃ parts, sections v = .header :: parts := ⟨_, rfl⟩
  rw [hparts] at h ⊢
  obtain ⟨earlier, later, rfl⟩ := List.append_of_mem ((List.mem_cons.1 h).resolve_left hp)
  refine ⟨Section.header.text.toList ++ furtherText earlier, furtherText later, ?_⟩
  rw [toList_fileText_cons, furtherText, List.flatMap_append, List.flatMap_cons]
  simp [furtherText]

theorem exists_signature_in_file {key type : String} (h : (key, type) ∈ v.attributes.toList) :
    ∃ before behind, (fileText (sections v)).toList =
      before ++ '\n' :: (signatureText (Name.camelCase key) type).toList ++
        "\n\treturn slog.".toList ++ behind := by
  have hm : (Name.camelCase key, key, type) ∈ (sections v).filterMap Section.attribute? := by
    rw [attributes_sections]
    exact List.mem_map.2 ⟨_, h, rfl⟩
  obtain ⟨part, hpart, hkind⟩ := List.mem_filterMap.1 hm
  obtain rfl : part = .attribute (Name.camelCase key) key type := by
    cases part <;> simp_all [Section.attribute?]
  obtain ⟨before, behind, hfile⟩ := exists_text_in_file hpart (by simp)
  obtain ⟨body, hbody⟩ := toList_attribute_text_of_signature (Name.camelCase key) key type
  exact ⟨before, body ++ behind, by rw [hfile, hbody]; simp⟩

/-- Line breaks in an accepted type stand where they go unseen, in a raw tag or behind a backslash;
a type with neither back quotes nor backslashes has none. The signature of an attribute's function
has as many line breaks as the type. -/
theorem lineBreaks_of_isTypeText {type : String} (h : isTypeText type = true) :
    (∀ before behind, type.toList = before ++ '\n' :: behind →
      (Reading.after {} before).mode.unseen = true) ∧
    ('\x60' ∉ type.toList → '\\' ∉ type.toList → '\n' ∉ type.toList) ∧
    ∀ v source key, emit v = .ok source → (key, type) ∈ v.attributes.toList →
      (∃ before behind, source.toList =
        before ++ '\n' :: (signatureText (Name.camelCase key) type).toList ++
          "\n\treturn slog.".toList ++ behind) ∧
      (signatureText (Name.camelCase key) type).toList.count '\n' = type.toList.count '\n' := by
  have hunseen {before behind : List Char} (hs : type.toList = before ++ '\n' :: behind) :
      (Reading.after {} before).mode.unseen = true := by
    have hides := hides_of_isTypeText h
    rw [hs] at hides
    exact hides.unseen
  refine ⟨fun before behind hs => hunseen hs, fun hraw hescape hbreak =>
    ?_, fun v source key hsource hentry => ?_⟩
  · obtain ⟨before, behind, hs⟩ := List.append_of_mem hbreak
    obtain hq | hq := Reading.mem_of_unseen (hunseen hs)
    · exact hraw (hs ▸ List.mem_append_left _ hq)
    · exact hescape (hs ▸ List.mem_append_left _ hq)
  · obtain ⟨hv, rfl⟩ := (emit_eq_ok v).1 hsource
    exact ⟨exists_signature_in_file hentry,
      count_signatureText (isIdentifier_attribute hv (List.mem_map_of_mem hentry)) type⟩

def brokenTag : Vocabulary where
  package := "slogx"
  imports := .ofList ["log/slog"]
  levels := .empty
  constants := .empty
  attributes := .ofList [("user_id", "struct\x7b V any \x60a\nb\x60 \x7d")]
  logger := none

theorem lineBreaks_of_isTypeText_brokenTag :
    isTypeText "struct\x7b V any \x60a\nb\x60 \x7d" = true ∧
      (Reading.after {} "struct\x7b V any \x60a".toList).mode.unseen = true ∧
      (∃ source, emit brokenTag = .ok source ∧
        (∃ before behind, source.toList = before ++ '\n' ::
          (signatureText (Name.camelCase "user_id") "struct\x7b V any \x60a\nb\x60 \x7d").toList ++
            "\n\treturn slog.".toList ++ behind) ∧
        (signatureText (Name.camelCase "user_id")
          "struct\x7b V any \x60a\nb\x60 \x7d").toList.count '\n' = 1) ∧
      isTypeText "struct\x7b V any \"a\" \x7d" = true ∧
        '\n' ∉ "struct\x7b V any \"a\" \x7d".toList := by
  have htype := isTypeText_taggedStruct (.raw ⟨['a', '\n', 'b'], by decide⟩)
  have hplain := isTypeText_taggedStruct (.quoted [.plain ⟨'a', by decide⟩])
  rw [text_taggedStruct] at htype hplain
  have hok : (emit brokenTag).isOk = true := by decide +kernel
  obtain ⟨source, he⟩ := Fallible.exists_of_isOk hok
  obtain ⟨hplaces, -, hsignatures⟩ := lineBreaks_of_isTypeText htype
  obtain ⟨hfile, hcount⟩ := hsignatures brokenTag source "user_id" he List.mem_cons_self
  have hnone := (lineBreaks_of_isTypeText hplain).2.1 (by decide) (by decide)
  exact ⟨htype, hplaces _ "b\x60 \x7d".toList (by decide), ⟨source, he, hfile, hcount⟩,
    hplain, hnone⟩

/-- Between back quotes, and behind a backslash. -/
theorem not_single_line_tags :
    (isTypeText "struct\x7b V any \x60\n\x60 \x7d" = true ∧
      ¬ '\n' ∉ "struct\x7b V any \x60\n\x60 \x7d".toList) ∧
    isTypeText "struct\x7b V any \"\\\n\" \x7d" = true ∧
      ¬ '\n' ∉ "struct\x7b V any \"\\\n\" \x7d".toList := by
  have hraw := isTypeText_taggedStruct (.raw ⟨['\n'], by decide⟩)
  have hquoted := isTypeText_taggedStruct (.quoted [.escaped '\n'])
  rw [text_taggedStruct] at hraw hquoted
  exact ⟨⟨hraw, by decide⟩, hquoted, by decide⟩

end SlogHelpers.Source
