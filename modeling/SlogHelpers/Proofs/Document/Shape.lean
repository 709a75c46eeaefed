import SlogHelpers.Proofs.Document.Written

/-!
The shapes that the places of a document call for, told of values as they are written, and that the
reader of each place takes just the values of its shape.
-/
namespace SlogHelpers

/-! ## Shapes -/

namespace Json.Numeral

def signed (n : Numeral) : Int :=
  if n.negative then -(Nat.ofDigitChars 10 n.whole 0 : Int) else Nat.ofDigitChars 10 n.whole 0

end Json.Numeral

namespace Json.Term

def IsString (term : Term) : Prop := ∃ s, term = .string s

def IsBoolean (term : Term) : Prop := ∃ b, term = .bool b

def IsOptionalString (term : Term) : Prop := term = .null ∨ term.IsString

/-- An integer literal in the range of 64 bits with a sign; zero has no minus sign. -/
def IsSeverity (term : Term) : Prop :=
  ∃ n : Numeral, term = .number n ∧ n.fraction = none ∧ n.exponent = none ∧
    ¬ (n.negative = true ∧ n.signed = 0) ∧
    -0x8000000000000000 ≤ n.signed ∧ n.signed ≤ 0x7FFFFFFFFFFFFFFF

def IsList (Item : Term → Prop) (term : Term) : Prop :=
  ∃ items, term = .array items ∧ ∀ item ∈ items, Item item

/-- An object with any names, empty or not. -/
def IsEntry (Value : Term → Prop) (term : Term) : Prop :=
  ∃ members, term = .object members ∧ ∀ member ∈ members, Value member.2

/-- The block about the logger, which has two names for one of its fields. -/
structure IsLoggerBlock (members : List (String × Term)) : Prop where
  fields : ∀ member ∈ members,
    (member.1 = "api" ∧ member.2.IsOptionalString) ∨
      ((member.1 = "ctx" ∨ member.1 = "context") ∧ member.2.IsBoolean)
  distinct : (members.map Prod.fst).Nodup
  single : ¬ ("ctx" ∈ members.map Prod.fst ∧ "context" ∈ members.map Prod.fst)

def isEmptyObject : Term → Bool
  | .object [] => true
  | _ => false

def IsLogger (term : Term) : Prop :=
  term = .null ∨ ∃ members, term = .object members ∧ IsLoggerBlock members

end Json.Term

namespace Document
open OfJson Fallible
open Json (Term Numeral)

def Field.Shape : Field → Term → Prop
  | .pkg => Term.IsOptionalString
  | .imports => Term.IsList Term.IsString
  | .levels => Term.IsList (Term.IsEntry Term.IsSeverity)
  | .consts => Term.IsList Term.IsString
  | .attrs => Term.IsList (Term.IsEntry Term.IsString)
  | .logger => Term.IsLogger

/-! ## Leaves -/

/-- The reader takes just the terms of a shape, all of which are read to their end. -/
def Takes {α : Type} (read : Json → Except OfJson.Fault α) (Shape : Term → Prop) : Prop :=
  ∀ term, (term.whole = true ∧ ∃ a, read term.found = .ok a) ↔ Shape term

theorem takes_string : Takes string Term.IsString := by
  intro term
  constructor
  · rintro ⟨-, s, h⟩
    exact ⟨s, Term.foundOf (string_eq_ok h)⟩
  · rintro ⟨s, rfl⟩
    exact ⟨rfl, s, rfl⟩

theorem optionalString_eq_ok {json : Json} {s : Option String} (h : optionalString json = .ok s) :
    json = .null ∨ ∃ text, json = .string text := by
  unfold optionalString at h
  split at h
  · exact .inl rfl
  · obtain ⟨text, htext, -⟩ := map_eq_ok.1 h
    exact .inr ⟨text, string_eq_ok htext⟩

theorem takes_optionalString : Takes optionalString Term.IsOptionalString := by
  intro term
  constructor
  · rintro ⟨-, s, h⟩
    obtain hnull | ⟨text, htext⟩ := optionalString_eq_ok h
    · exact .inl (Term.foundOf hnull)
    · exact .inr ⟨text, Term.foundOf htext⟩
  · rintro (rfl | ⟨text, rfl⟩)
    · exact ⟨rfl, none, rfl⟩
    · exact ⟨rfl, some text, rfl⟩

theorem boolean_eq_ok {json : Json} {b : Bool} (h : boolean json = .ok b) : json = .bool b := by
  unfold boolean at h
  split at h
  · cases h
    rfl
  · cases h

theorem takes_boolean : Takes boolean Term.IsBoolean := by
  intro term
  constructor
  · rintro ⟨-, b, h⟩
    exact ⟨b, Term.foundOf (boolean_eq_ok h)⟩
  · rintro ⟨b, rfl⟩
    exact ⟨rfl, b, rfl⟩

/-! ## Severities -/

theorem number?_eq_integer {n : Numeral} {value : Int} : n.number? = some (.integer value) ↔
    n.integer? = some value := by
  rw [Numeral.number?]
  cases n.integer? with
  | some found => simp
  | none => simp

/-- An integer is a literal without fraction and exponent. -/
theorem integer?_eq_some {n : Numeral} {value : Int} (hl : -0x8000000000000000 ≤ value)
    (hu : value ≤ 0x7FFFFFFFFFFFFFFF) :
    n.integer? = some value ↔
      n.fraction = none ∧ n.exponent = none ∧ ¬ (n.negative = true ∧ n.signed = 0) ∧
        n.signed = value := by
  obtain ⟨negative, whole, fraction, exponent⟩ := n
  cases fraction with
  | some ds => simp [Numeral.integer?]
  | none =>
    cases exponent with
    | some e => simp [Numeral.integer?]
    | none =>
      cases negative with
      | true =>
        simp [Numeral.integer?, Numeral.signed]
        intro h
        omega
      | false =>
        by_cases hk : Nat.ofDigitChars 10 whole 0 ≤ Json.maxWord
        · simp [Numeral.integer?, Numeral.signed, hk]
        · have hlarge : value < Nat.ofDigitChars 10 whole 0 := by
            rw [Json.maxWord] at hk
            omega
          simp [Numeral.integer?, Numeral.signed, hk]
          omega

theorem takes_severity : Takes severity Term.IsSeverity := by
  intro term
  constructor
  · rintro ⟨-, s, h⟩
    have hl : -0x8000000000000000 ≤ s.toInt := s.min_le
    have hu : s.toInt ≤ 0x7FFFFFFFFFFFFFFF := Int.le_of_lt_add_one s.lt_max
    obtain ⟨n, rfl, hn⟩ := Term.foundOf (severity_eq_ok h)
    obtain ⟨hf, he, hz, hs⟩ := (integer?_eq_some hl hu).1 (number?_eq_integer.1 hn)
    exact ⟨n, rfl, hf, he, hz, hs ▸ hl, hs ▸ hu⟩
  · rintro ⟨n, rfl, hf, he, hz, hl, hu⟩
    have hi : n.integer? = some n.signed := (integer?_eq_some hl hu).2 ⟨hf, he, hz, rfl⟩
    have hn : n.number? = some (.integer n.signed) := number?_eq_integer.2 hi
    have hs : Severity.ofInt? n.signed = some ⟨n.signed, hl, Int.lt_add_one_of_le hu⟩ :=
      dif_pos ⟨hl, Int.lt_add_one_of_le hu⟩
    refine ⟨by rw [Term.whole, hn]; rfl, ⟨n.signed, hl, Int.lt_add_one_of_le hu⟩, ?_⟩
    rw [Term.found, hn, Option.elim_some, severity, hs]

/-! ## Lists and entries -/

variable {α β : Type}

theorem exists_mapM_eq_ok {f : α → Except OfJson.Fault β} {xs : List α} :
    (∃ ys, xs.mapM f = .ok ys) ↔ ∀ x ∈ xs, ∃ y, f x = .ok y := by
  simp only [← fault?_eq_none, fault?_mapM, List.findSome?_eq_none_iff]

theorem exists_bind_pure_eq_ok {first : Except OfJson.Fault α} {f : α → β} :
    (∃ b, (first >>= fun a => pure (f a)) = .ok b) ↔ ∃ a, first = .ok a := by
  cases first with
  | error fault =>
    constructor
    · rintro ⟨b, h⟩
      cases h
    · rintro ⟨a, h⟩
      cases h
  | ok a => exact ⟨fun _ => ⟨a, rfl⟩, fun _ => ⟨f a, rfl⟩⟩

theorem exists_bind_ifClosed_eq_ok {first : Except OfJson.Fault α} {f : α → β} {closed : Bool} :
    (∃ b, (first >>= fun a => ifClosed closed (f a)) = .ok b) ↔
      closed = true ∧ ∃ a, first = .ok a := by
  cases closed with
  | true =>
    rw [eq_self, true_and]
    exact exists_bind_pure_eq_ok
  | false =>
    cases first with
    | error fault => simp [bind, Except.bind]
    | ok a => simp [bind, Except.bind, ifClosed]

theorem exists_list_eq_ok {item : Json → Except OfJson.Fault α} {json : Json} :
    (∃ values, list item json = .ok values) ↔
      ∃ items, json = .array items true ∧ ∀ found ∈ items, ∃ a, item found = .ok a := by
  cases json with
  | array items closed =>
    rw [list, exists_bind_ifClosed_eq_ok, exists_mapM_eq_ok]
    constructor
    · rintro ⟨rfl, h⟩
      exact ⟨items, rfl, h⟩
    · rintro ⟨_, he, h⟩
      cases he
      exact ⟨rfl, h⟩
  | _ => simp [list]

theorem exists_entry_eq_ok {value : Json → Except OfJson.Fault α} {json : Json} :
    (∃ e, entry value json = .ok e) ↔
      ∃ members, json = .object members true ∧ ∀ member ∈ members, ∃ a, value member.2 = .ok a := by
  cases json with
  | object members closed =>
    rw [entry, exists_bind_ifClosed_eq_ok, exists_mapM_eq_ok]
    simp only [exists_bind_pure_eq_ok]
    constructor
    · rintro ⟨rfl, h⟩
      exact ⟨members, rfl, h⟩
    · rintro ⟨_, he, h⟩
      cases he
      exact ⟨rfl, h⟩
  | _ => simp [entry]

theorem takes_list {item : Json → Except OfJson.Fault α} {Item : Term → Prop}
    (h : Takes item Item) :
    Takes (list item) (Term.IsList Item) := by
  intro term
  rw [exists_list_eq_ok]
  constructor
  · rintro ⟨-, jsons, hfound, hjsons⟩
    obtain ⟨items, rfl, rfl, hw⟩ := Term.foundOf hfound
    rw [Term.foundItems_of_whole hw] at hjsons
    refine ⟨items, rfl, fun term ht => (h term).1 ⟨Term.wholeItems_iff.1 hw term ht, ?_⟩⟩
    exact hjsons _ (List.mem_map_of_mem ht)
  · rintro ⟨items, rfl, hitems⟩
    have hw : Term.wholeItems items = true :=
      Term.wholeItems_iff.2 fun term ht => ((h term).2 (hitems term ht)).1
    refine ⟨hw, items.map Term.found, ?_, List.forall_mem_map.2 fun term ht =>
      ((h term).2 (hitems term ht)).2⟩
    rw [Term.found, hw, Term.foundItems_of_whole hw]

theorem takes_entry {value : Json → Except OfJson.Fault α} {Value : Term → Prop}
    (h : Takes value Value) :
    Takes (entry value) (Term.IsEntry Value) := by
  intro term
  rw [exists_entry_eq_ok]
  constructor
  · rintro ⟨-, jsons, hfound, hjsons⟩
    obtain ⟨members, rfl, rfl, hw⟩ := Term.foundOf hfound
    rw [Term.foundMembers_of_whole hw] at hjsons
    refine ⟨members, rfl, fun member hm =>
      (h member.2).1 ⟨Term.wholeMembers_iff.1 hw member hm, ?_⟩⟩
    exact hjsons _ (List.mem_map_of_mem hm)
  · rintro ⟨members, rfl, hmembers⟩
    have hw : Term.wholeMembers members = true :=
      Term.wholeMembers_iff.2 fun member hm => ((h member.2).2 (hmembers member hm)).1
    refine ⟨hw, members.map fun member => (member.1, member.2.found), ?_,
      List.forall_mem_map.2 fun member hm => ((h member.2).2 (hmembers member hm)).2⟩
    rw [Term.found, hw, Term.foundMembers_of_whole hw]

/-! ## Records -/

section Record

variable {φ ρ ν : Type} [DecidableEq φ] {reader : RecordReader φ ρ ν OfJson.Fault}
  {Fits : φ → ν → Prop}

/-- A record is made of values that fit the fields of their names, if no field comes twice. -/
theorem exists_readNamed_eq_ok (hset : ∀ field value record,
    (∃ next, reader.set field value record = .ok next) ↔ Fits field value)
    {seen : List φ} {start : ρ} {members : List (String × ν)} :
    (∃ result, reader.readNamed seen start members = .ok result) ↔
      (∀ member ∈ members, ∃ field, reader.field? member.1 = some field ∧
        field ∉ seen ∧ Fits field member.2) ∧
        (members.map fun member => reader.field? member.1).Nodup := by
  induction members generalizing seen start with
  | nil => exact ⟨fun _ => ⟨nofun, List.nodup_nil⟩, fun _ => ⟨start, rfl⟩⟩
  | cons member rest ih =>
    obtain ⟨name, value⟩ := member
    rw [List.forall_mem_cons, List.map_cons, List.nodup_cons]
    constructor
    · rintro ⟨result, h⟩
      obtain ⟨field, next, hf, hs, hv, hrest⟩ := readNamed_cons_eq_ok.1 h
      obtain ⟨hmembers, hnodup⟩ := ih.1 ⟨result, hrest⟩
      refine ⟨⟨⟨field, hf, hs, (hset _ _ _).1 ⟨next, hv⟩⟩, fun member hm => ?_⟩, ?_, hnodup⟩
      · obtain ⟨other, ho, hn, hfits⟩ := hmembers member hm
        exact ⟨other, ho, fun hseen => hn (List.mem_cons_of_mem _ hseen), hfits⟩
      · intro hmem
        obtain ⟨member, hm, he⟩ := List.mem_map.1 hmem
        obtain ⟨other, ho, hn, -⟩ := hmembers member hm
        obtain rfl : other = field := Option.some.inj (ho.symm.trans (he.trans hf))
        exact hn List.mem_cons_self
    · rintro ⟨⟨⟨field, hf, hs, hfits⟩, hmembers⟩, hnew, hnodup⟩
      obtain ⟨next, hv⟩ := (hset field value start).2 hfits
      have hrest : ∃ result, reader.readNamed (field :: seen) next rest = .ok result := by
        refine ih.2 ⟨fun member hm => ?_, hnodup⟩
        obtain ⟨other, ho, hn, hfits⟩ := hmembers member hm
        refine ⟨other, ho, ?_, hfits⟩
        rw [List.mem_cons, not_or]
        refine ⟨?_, hn⟩
        rintro rfl
        exact hnew (List.mem_map.2 ⟨member, hm, ho.trans hf.symm⟩)
      obtain ⟨result, hresult⟩ := hrest
      exact ⟨result, readNamed_cons_eq_ok.2 ⟨field, next, hf, hs, hv, hresult⟩⟩

end Record

/-- A record is read of terms that are read to their end. -/
theorem exists_readNamed_found_eq_ok {φ ρ : Type} [DecidableEq φ]
    {reader : RecordReader φ ρ Json OfJson.Fault} {Fits : φ → Json → Prop}
    (hset : ∀ field value record, (∃ next, reader.set field value record = .ok next) ↔
      Fits field value) {start : ρ}
    {members : List (String × Term)} :
    (Term.wholeMembers members = true ∧
      ∃ result, reader.readNamed [] start (Term.foundMembers members) = .ok result) ↔
      (∀ member ∈ members,
        ∃ field, reader.field? member.1 = some field ∧ member.2.whole = true ∧
          Fits field member.2.found) ∧
        (members.map fun member => reader.field? member.1).Nodup := by
  constructor
  · rintro ⟨hw, h⟩
    rw [Term.foundMembers_of_whole hw, exists_readNamed_eq_ok hset, List.forall_mem_map,
      List.map_map] at h
    refine ⟨fun member hm => ?_, h.2⟩
    obtain ⟨field, hf, -, hfits⟩ := h.1 member hm
    exact ⟨field, hf, Term.wholeMembers_iff.1 hw member hm, hfits⟩
  · rintro ⟨hmembers, hnodup⟩
    have hw : Term.wholeMembers members = true := by
      refine Term.wholeMembers_iff.2 fun member hm => ?_
      obtain ⟨field, -, hwhole, -⟩ := hmembers member hm
      exact hwhole
    rw [Term.foundMembers_of_whole hw, exists_readNamed_eq_ok hset,
      List.forall_mem_map, List.map_map]
    refine ⟨hw, fun member hm => ?_, hnodup⟩
    obtain ⟨field, hf, -, hfits⟩ := hmembers member hm
    exact ⟨field, hf, List.not_mem_nil, hfits⟩

end Document
end SlogHelpers
