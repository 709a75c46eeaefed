import SlogHelpers.Proofs.Json.Grammar

/-!
JSON texts with their numbers as they are written. A number may be too large to be read; then a text
is read as far as that number.
-/
namespace SlogHelpers.Json

/-- A value whose numbers stand as they are written. -/
inductive Term where
  | null
  | bool (value : Bool)
  | number (numeral : Numeral)
  | string (value : String)
  | array (items : List Term)
  | object (members : List (String × Term))

namespace Term

mutual

/-- The term has no number that is too large. -/
def whole : Term → Bool
  | .number numeral => numeral.number?.isSome
  | .array items => wholeItems items
  | .object members => wholeMembers members
  | _ => true

def wholeItems : List Term → Bool
  | [] => true
  | item :: rest => item.whole && wholeItems rest

def wholeMembers : List (String × Term) → Bool
  | [] => true
  | (_, item) :: rest => item.whole && wholeMembers rest

end

mutual

/-- What is found of the term up to the first number that is too large. -/
def found : Term → Json
  | .null => .null
  | .bool value => .bool value
  | .number numeral => numeral.number?.elim .broken .number
  | .string value => .string value
  | .array items => .array (foundItems items) (wholeItems items)
  | .object members => .object (foundMembers members) (wholeMembers members)

def foundItems : List Term → List Json
  | [] => []
  | item :: rest => item.found :: if item.whole then foundItems rest else []

def foundMembers : List (String × Term) → List (String × Json)
  | [] => []
  | (name, item) :: rest => (name, item.found) :: if item.whole then foundMembers rest else []

end

variable {items : List Term} {members : List (String × Term)}

theorem wholeItems_iff : wholeItems items = true ↔ ∀ item ∈ items, item.whole = true := by
  induction items with
  | nil => simp [wholeItems]
  | cons item rest ih => simp [wholeItems, ih]

theorem wholeMembers_iff : wholeMembers members = true ↔
    ∀ member ∈ members, member.2.whole = true := by
  induction members with
  | nil => simp [wholeMembers]
  | cons member rest ih => simp [wholeMembers, ih]

theorem foundItems_of_whole (h : wholeItems items = true) : foundItems items = items.map found := by
  induction items with
  | nil => rfl
  | cons item rest ih =>
    rw [wholeItems, Bool.and_eq_true] at h
    rw [foundItems, if_pos h.1, ih h.2, List.map_cons]

theorem foundMembers_of_whole (h : wholeMembers members = true) :
    foundMembers members = members.map fun member => (member.1, member.2.found) := by
  induction members with
  | nil => rfl
  | cons member rest ih =>
    rw [wholeMembers, Bool.and_eq_true] at h
    rw [foundMembers, if_pos h.1, ih h.2, List.map_cons]

/-- The terms that a value can be found of. -/
def FoundOf : Json → Term → Prop
  | .null, term => term = .null
  | .bool value, term => term = .bool value
  | .number value, term => ∃ numeral, term = .number numeral ∧ numeral.number? = some value
  | .string value, term => term = .string value
  | .array jsons closed, term =>
    ∃ items, term = .array items ∧ foundItems items = jsons ∧ wholeItems items = closed
  | .object jsons closed, term =>
    ∃ members, term = .object members ∧ foundMembers members = jsons ∧ wholeMembers members = closed
  | .broken, term => ∃ numeral, term = .number numeral ∧ numeral.number? = none

theorem foundOf_found (term : Term) : FoundOf term.found term := by
  cases term with
  | number numeral =>
    rw [found]
    cases hn : numeral.number? with
    | none => exact ⟨numeral, rfl, hn⟩
    | some value => exact ⟨numeral, rfl, hn⟩
  | array items => exact ⟨items, rfl, rfl, rfl⟩
  | object members => exact ⟨members, rfl, rfl, rfl⟩
  | _ => exact rfl

theorem foundOf {term : Term} {json : Json} (h : term.found = json) : FoundOf json term :=
  h ▸ term.foundOf_found

end Term

/-! ## Texts -/

inductive Passage where
  | value (term : Term)
  | element (term : Term)
  | elements (items : List Term)
  | members (members : List (String × Term))

inductive Writes : Passage → List Char → Prop
  | null : Writes (.value .null) ['n', 'u', 'l', 'l']
  | true : Writes (.value (.bool true)) ['t', 'r', 'u', 'e']
  | false : Writes (.value (.bool false)) ['f', 'a', 'l', 's', 'e']
  | number {numeral} (h : Numeral.WellFormed numeral) :
    Writes (.value (.number numeral)) numeral.text
  | string {s t} (h : SpelledString s t) : Writes (.value (.string s)) t
  | emptyArray {w} (hw : Spaces w) : Writes (.value (.array [])) ('[' :: w ++ [']'])
  | array {items t} (h : Writes (.elements items) t) :
    Writes (.value (.array items)) ('[' :: t ++ [']'])
  | emptyObject {w} (hw : Spaces w) : Writes (.value (.object [])) ('\x7b' :: w ++ ['\x7d'])
  | object {members t} (h : Writes (.members members) t) :
    Writes (.value (.object members)) ('\x7b' :: t ++ ['\x7d'])
  | element {term u t w} (hu : Spaces u) (h : Writes (.value term) t) (hw : Spaces w) :
    Writes (.element term) (u ++ t ++ w)
  | lastElement {term t} (h : Writes (.element term) t) : Writes (.elements [term]) t
  | moreElements {term items t ts} (h : Writes (.element term) t)
    (hs : Writes (.elements items) ts) :
    Writes (.elements (term :: items)) (t ++ ',' :: ts)
  | lastMember {name term u k w t} (hu : Spaces u) (hk : SpelledString name k) (hw : Spaces w)
    (h : Writes (.element term) t) : Writes (.members [(name, term)]) (u ++ k ++ w ++ ':' :: t)
  | moreMembers {name term members u k w t ts} (hu : Spaces u) (hk : SpelledString name k)
    (hw : Spaces w)
    (h : Writes (.element term) t) (hs : Writes (.members members) ts) :
    Writes (.members ((name, term) :: members)) (u ++ k ++ w ++ ':' :: t ++ ',' :: ts)

/-- The text is well-formed and says the term. -/
def Says (text : List Char) (term : Term) : Prop := Writes (.element term) text

/-- A text of the phrase says terms without numbers that are too large. -/
def Phrase.SaidBy : Phrase → List Char → Prop
  | .value json, t => ∃ term, Writes (.value term) t ∧ term.found = json ∧ term.whole = true
  | .element json, t => ∃ term, Writes (.element term) t ∧ term.found = json ∧ term.whole = true
  | .elements jsons, t =>
    ∃ items, Writes (.elements items) t ∧ Term.foundItems items = jsons ∧
      Term.wholeItems items = true
  | .members jsons, t =>
    ∃ members, Writes (.members members) t ∧ Term.foundMembers members = jsons ∧
      Term.wholeMembers members = true

theorem saidBy_of_spelled {phrase : Phrase} {t : List Char} (h : Spelled phrase t) :
    phrase.SaidBy t := by
  induction h with
  | null => exact ⟨.null, .null, rfl, rfl⟩
  | true => exact ⟨.bool true, .true, rfl, rfl⟩
  | false => exact ⟨.bool false, .false, rfl, rfl⟩
  | @number numeral number h hn =>
    refine ⟨.number numeral, .number h, ?_, ?_⟩
    · rw [Term.found, hn]
      rfl
    · rw [Term.whole, hn]
      rfl
  | @string s t h => exact ⟨.string s, .string h, rfl, rfl⟩
  | emptyArray hw => exact ⟨.array [], .emptyArray hw, rfl, rfl⟩
  | array _ ih =>
    obtain ⟨items, ht, hfound, hwhole⟩ := ih
    exact ⟨.array items, .array ht, by rw [Term.found, hfound, hwhole], hwhole⟩
  | emptyObject hw => exact ⟨.object [], .emptyObject hw, rfl, rfl⟩
  | object _ ih =>
    obtain ⟨members, ht, hfound, hwhole⟩ := ih
    exact ⟨.object members, .object ht, by rw [Term.found, hfound, hwhole], hwhole⟩
  | element hu _ hw ih =>
    obtain ⟨term, ht, hsays⟩ := ih
    exact ⟨term, .element hu ht hw, hsays⟩
  | lastElement _ ih =>
    obtain ⟨term, ht, rfl, hwhole⟩ := ih
    exact ⟨[term], .lastElement ht, by simp [Term.foundItems], by simp [Term.wholeItems, hwhole]⟩
  | moreElements _ _ ih ihs =>
    obtain ⟨term, ht, rfl, hwhole⟩ := ih
    obtain ⟨items, hts, rfl, hmore⟩ := ihs
    exact ⟨term :: items, .moreElements ht hts, by simp [Term.foundItems, hwhole],
      by simp [Term.wholeItems, hwhole, hmore]⟩
  | lastMember hu hk hw _ ih =>
    obtain ⟨term, ht, rfl, hwhole⟩ := ih
    exact ⟨[(_, term)], .lastMember hu hk hw ht, by simp [Term.foundMembers],
      by simp [Term.wholeMembers, hwhole]⟩
  | moreMembers hu hk hw _ _ ih ihs =>
    obtain ⟨term, ht, rfl, hwhole⟩ := ih
    obtain ⟨members, hts, rfl, hmore⟩ := ihs
    exact ⟨(_, term) :: members, .moreMembers hu hk hw ht hts, by simp [Term.foundMembers, hwhole],
      by simp [Term.wholeMembers, hwhole, hmore]⟩

end SlogHelpers.Json
