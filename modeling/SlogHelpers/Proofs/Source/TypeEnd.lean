import Mathlib.Data.List.DropRight
import SlogHelpers.Proofs.Lists
import SlogHelpers.Proofs.Source.Rest

/-!
Where types end: what may follow a type cannot begin one, and a name with a space or a comma behind
it is a type of its own.
-/
namespace SlogHelpers.Source.TypeText

/-- What may stand behind a type, after spaces or at once. -/
def closers : List Char := [')', ']', '\x7d', ',', ';', '|', '\x60', '"']

/-- There is nothing but spaces, or the first other character is one of these. -/
def EndsIn (marks rest : List Char) : Prop := ∀ c, (skipSpaces rest).head? = some c → c ∈ marks

variable {s rest mid : List Char} {c : Char} {marks : List Char}

theorem endsIn_nil (marks : List Char) : EndsIn marks [] := nofun

theorem EndsIn.mono {fewer : List Char} (h : EndsIn fewer rest) (hm : fewer ⊆ marks) :
    EndsIn marks rest :=
  fun c hc => hm (h c hc)

theorem endsIn_of_head (h : (skipSpaces rest).head? = some c) (hc : c ∈ marks) :
    EndsIn marks rest := by
  intro d hd
  rw [h] at hd
  exact Option.some.inj hd ▸ hc

theorem skipSpaces_cons_of_ne (h : c ≠ ' ' ∧ c ≠ '\t') (s : List Char) :
    skipSpaces (c :: s) = c :: s :=
  List.dropWhile_cons_of_neg (by simpa using h)

theorem EndsIn.head_mem (h : EndsIn marks (c :: s)) : c ∈ ' ' :: '\t' :: marks := by
  by_cases hb : c ≠ ' ' ∧ c ≠ '\t'
  · exact List.mem_cons_of_mem
      _ (List.mem_cons_of_mem _ (h c (by rw [skipSpaces_cons_of_ne hb, List.head?_cons])))
  · simp only [List.mem_cons]
    tauto

theorem EndsIn.isNameChar (h : EndsIn closers (c :: s)) : Text.isNameChar c = false := by
  have hall : (' ' :: '\t' :: closers).all (fun d => !Text.isNameChar d) = true := by decide
  simpa using List.all_eq_true.1 hall c h.head_mem

theorem skipSpaces_blank (s : List Char) : skipSpaces (' ' :: s) = skipSpaces s := rfl

theorem skipSpaces_skipSpaces (s : List Char) : skipSpaces (skipSpaces s) = skipSpaces s :=
  List.dropWhile_idempotent _ s

theorem endsIn_of_past? (h : (past? c).rest? (skipSpaces mid) = some rest) (hc : c ∈ marks) :
    EndsIn marks mid :=
  endsIn_of_head (by rw [rest?_past?_eq_some.1 h]; rfl) hc

/-! ## What begins a type -/

/-- The opening at the front of the text, and what follows it. -/
def opened? (s : List Char) : Option (Opening × List Char) :=
  openings.findSome? fun entry =>
    if entry.1.isPrefixOf s then some (entry.2, s.drop entry.1.length) else none

theorem opening?_map (s : List Char) :
    (opening? s).map (fun found => (found.1, found.2.1)) = opened? s := by
  rw [opening?, List.map_findSome?, opened?]
  refine congrArg (openings.findSome? ·) (funext fun entry => ?_)
  simp only [Function.comp_apply, strip?]
  split <;> rfl

theorem rest?_take_opened (levels : Nat) (s : List Char) :
    (take (levels + 1)).rest? s = (opened? s).elim ((named (take levels)).rest? s)
      fun found => (found.1.take (take levels)).rest? found.2 := by
  rw [rest?_take_succ, ← opening?_map]
  cases opening? s with
  | none => rfl
  | some found => rfl

theorem opened?_cons_eq_none (h : openings.all (fun entry => entry.1.head?.any (· != c)) = true)
    (s : List Char) :
    opened? (c :: s) = none := by
  refine List.findSome?_eq_none_iff.2 fun entry he => if_neg fun hp => ?_
  have hw := List.all_eq_true.1 h entry he
  obtain ⟨tail, ht⟩ := List.isPrefixOf_iff_prefix.1 hp
  cases hc : entry.1 with
  | nil => simp [hc] at hw
  | cons d word =>
    rw [hc] at hw ht
    exact bne_iff_ne.1 hw (List.cons.inj ht).1

theorem rest?_identifier_cons_eq_none (h : Text.isNameChar c = false) (s : List Char) :
    identifier.rest? (c :: s) = none := by
  rw [rest?_identifier, List.takeWhile_cons_of_neg (by simp [h])]
  rfl

theorem rest?_named_eq_none {t : Taker} (h : identifier.rest? s = none) :
    (named t).rest? s = none := by
  rw [named, Taker.rest?_extendedBy, typeName, Taker.rest?_extendedBy, h]
  rfl

/-- What may follow a type begins none. -/
theorem rest?_take_of_endsIn (levels : Nat) (h : EndsIn closers s) :
    (take levels).rest? s = none := by
  cases levels with
  | zero => rfl
  | succ levels =>
    cases s with
    | nil => rfl
    | cons c s =>
      have hall : (' ' :: '\t' :: closers).all
          (fun d => openings.all fun entry => entry.1.head?.any (· != d)) = true := by decide
      have ho := List.all_eq_true.1 hall c h.head_mem
      rw [rest?_take_opened, opened?_cons_eq_none ho, Option.elim_none,
        rest?_named_eq_none (rest?_identifier_cons_eq_none h.isNameChar s)]

/-! ## Names -/

/-- No opening begins with an identifier. -/
theorem opened?_eq_none_of_identifier (h : identifier.rest? s = some rest) : opened? s = none := by
  have hall : openings.all (fun entry => entry.1.any (fun c => !Text.isNameChar c) &&
      !isIdentifierChars (entry.1.takeWhile Text.isNameChar)) = true := by decide +kernel
  refine List.findSome?_eq_none_iff.2 fun entry he => if_neg fun hp => ?_
  obtain ⟨tail, rfl⟩ := List.isPrefixOf_iff_prefix.1 hp
  obtain ⟨hany, hword⟩ := Bool.and_eq_true_iff.1 (List.all_eq_true.1 hall entry he)
  have hw : (entry.1 ++ tail).takeWhile Text.isNameChar = entry.1.takeWhile Text.isNameChar := by
    obtain ⟨c, hc, hn⟩ := List.any_eq_true.1 hany
    have hn : Text.isNameChar c = false := by simpa using hn
    obtain ⟨before, after, hs⟩ := List.append_of_mem hc
    rw [hs, List.append_assoc, List.cons_append, Lists.takeWhile_append_cons_of_neg hn,
      Lists.takeWhile_append_cons_of_neg hn]
  rw [rest?_identifier, hw] at h
  split at h
  · next hi => simp [hi] at hword
  · cases h

theorem rest?_named_of_identifier {t : Taker} (h : identifier.rest? s = some rest)
    (hd : rest.head? ≠ some '.') (ho : rest.head? ≠ some '[') : (named t).rest? s = some rest := by
  have hpast {d : Char} (hne : rest.head? ≠ some d) : (past? d).rest? rest = none := by
    cases hp : (past? d).rest? rest with
    | none => rfl
    | some after =>
      rw [rest?_past?_eq_some.1 hp] at hne
      exact absurd rfl hne
  rw [named, Taker.rest?_extendedBy, typeName, Taker.rest?_extendedBy, h,
    Option.bind_some, hpast hd, Option.elim_none, Option.bind_some, hpast ho, Option.elim_none]

/-- Of a name with a space or a comma behind it nothing but the name is a type. -/
theorem rest?_take_of_identifier {levels : Nat} (h : identifier.rest? s = some rest)
    (hc : rest.head? = some ' ' ∨ rest.head? = some ',') (ht : (take levels).rest? s = some mid) :
    mid = rest := by
  cases levels with
  | zero => cases ht
  | succ levels =>
    have hd : rest.head? ≠ some '.' := by
      obtain hc | hc := hc <;> simp [hc]
    have ho : rest.head? ≠ some '[' := by
      obtain hc | hc := hc <;> simp [hc]
    rw [rest?_take_opened, opened?_eq_none_of_identifier h, Option.elim_none,
      rest?_named_of_identifier h hd ho] at ht
    exact (Option.some.inj ht).symm

end SlogHelpers.Source.TypeText
