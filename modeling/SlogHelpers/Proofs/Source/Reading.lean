import Mathlib.Computability.Language
import Mathlib.Order.CompletePartialOrder
import SlogHelpers.Source.Identifier

/-!
Reading the text of a type from left to right: which brackets are open at a place and whether it
lies in a tag, and what may stand there. A word moves the reading from some open brackets to others
if all its characters may stand where they do; such words compose, whatever brackets are open around
them.
-/
namespace SlogHelpers.Source

inductive Bracket where
  | round
  | square
  | curly
  deriving DecidableEq, Repr

namespace Bracket

def opening : Bracket → Char
  | .round => '('
  | .square => '['
  | .curly => '\x7b'

def closing : Bracket → Char
  | .round => ')'
  | .square => ']'
  | .curly => '\x7d'

def ofOpening? (c : Char) : Option Bracket := [round, square, curly].find? (·.opening = c)

def ofClosing? (c : Char) : Option Bracket := [round, square, curly].find? (·.closing = c)

end Bracket

/-- Where a place lies: outside of tags, in a raw one, or in an interpreted one, perhaps behind a
backslash. -/
inductive Mode where
  | plain
  | raw
  | interpreted (escaped : Bool)
  deriving DecidableEq, Repr

/-- What is known at a place in the text of a type. -/
structure Reading where
  /-- The brackets that are open, the innermost first. -/
  opened : List Bracket := []
  mode : Mode := .plain
  deriving DecidableEq, Repr

def tagQuotes : List Char := ['\x60', '"']

def separators : List Char := [',', ';']

/-- The other characters outside of tags that are neither letters nor digits nor brackets. -/
def plainMarks : List Char := ['.', '*', '<', '-', '|', '~', ' ', '\t']

namespace Reading

/-- What is known behind one more character. -/
def next (r : Reading) (c : Char) : Reading :=
  match r.mode with
  | .raw => if c = '\x60' then { r with mode := .plain } else r
  | .interpreted true => { r with mode := .interpreted false }
  | .interpreted false =>
    if c = '\\' then { r with mode := .interpreted true }
    else if c = '"' then { r with mode := .plain }
    else r
  | .plain =>
    if c = '\x60' then { r with mode := .raw }
    else if c = '"' then { r with mode := .interpreted false }
    else match Bracket.ofOpening? c, Bracket.ofClosing? c with
      | some b, _ => { r with opened := b :: r.opened }
      | none, some _ => { r with opened := r.opened.tail }
      | none, none => r

def after (r : Reading) (word : List Char) : Reading := word.foldl next r

/-- The character may stand at this place outside of tags. -/
structure Allows (r : Reading) (c : Char) : Prop where
  /-- It is a letter, a digit or one of few others. -/
  known : Text.isNameChar c = true ∨ c ∈ plainMarks ∨ c ∈ separators ∨ c ∈ tagQuotes ∨
    (Bracket.ofOpening? c).isSome ∨ (Bracket.ofClosing? c).isSome
  /-- A bracket closes the innermost one that is open, which is of its kind. -/
  closes : ∀ b, Bracket.ofClosing? c = some b → r.opened.head? = some b
  /-- Separators and tags stand inside of brackets. -/
  inside : c ∈ separators ++ tagQuotes → r.opened ≠ []

/-- All characters of the word may stand where they do. -/
def Passes : Reading → List Char → Prop
  | _, [] => True
  | r, c :: word => (r.mode = .plain → r.Allows c) ∧ (r.next c).Passes word

/-- The reading inside of further brackets. -/
def within (r : Reading) (outer : List Bracket) : Reading := { r with opened := r.opened ++ outer }

variable {r : Reading} {c : Char} {u w word : List Char} {a b d outer : List Bracket}

theorem after_append : r.after (u ++ w) = (r.after u).after w := List.foldl_append

theorem passes_append : r.Passes (u ++ w) ↔ r.Passes u ∧ (r.after u).Passes w := by
  induction u generalizing r with
  | nil => simp [Passes, after]
  | cons c u ih => simp only [List.cons_append, Passes, ih, and_assoc, after, List.foldl_cons]

theorem Passes.allows {after : List Char} (h : r.Passes (u ++ c :: after))
    (hm : (r.after u).mode = .plain) : (r.after u).Allows c :=
  (passes_append.1 h).2.1 hm

theorem Allows.within (h : r.Allows c) (outer : List Bracket) : (r.within outer).Allows c where
  known := h.known
  closes b hb := by
    have ho := h.closes b hb
    simp [Reading.within, List.head?_append, ho]
  inside hc := by
    have ho := h.inside hc
    simp [Reading.within, ho]

/-- Brackets around a word do not matter to it as long as it may stand there without them. -/
theorem next_within (h : r.mode = .plain → r.Allows c) :
    (r.within outer).next c = (r.next c).within outer := by
  obtain ⟨opened, mode⟩ := r
  cases mode with
  | raw => by_cases hc : c = '\x60' <;> simp [next, within, hc]
  | interpreted escaped =>
    cases escaped with
    | true => rfl
    | false => by_cases hc : c = '\\' <;> by_cases hq : c = '"' <;> simp [next, within, hc, hq]
  | plain =>
    have ha := h rfl
    by_cases hc : c = '\x60'
    · simp [next, within, hc]
    · by_cases hq : c = '"'
      · simp [next, within, hq]
      · cases ho : Bracket.ofOpening? c with
        | some b => simp [next, within, hc, hq, ho]
        | none =>
          cases hcl : Bracket.ofClosing? c with
          | none => simp [next, within, hc, hq, ho, hcl]
          | some b =>
            have hh := ha.closes b hcl
            have hne : opened ≠ [] := by
              intro he
              simp [he] at hh
            simp [next, within, hc, hq, ho, hcl, List.tail_append_of_ne_nil hne]

theorem Passes.within (h : r.Passes word) (outer : List Bracket) :
    (r.within outer).Passes word ∧ (r.within outer).after word = (r.after word).within outer := by
  induction word generalizing r with
  | nil => exact ⟨trivial, rfl⟩
  | cons c word ih =>
    obtain ⟨hc, hw⟩ := h
    obtain ⟨hp, ha⟩ := ih hw
    rw [← next_within hc] at hp ha
    exact ⟨⟨fun hm => (hc hm).within outer, hp⟩, ha⟩

/-- Words that move a reading from some open brackets to others. -/
def moves (a b : List Bracket) : Language Char :=
  {word | Passes ⟨a, .plain⟩ word ∧ after ⟨a, .plain⟩ word = ⟨b, .plain⟩}

theorem mul_le_moves {l m : Language Char} (hl : l ≤ moves a b) (hm : m ≤ moves b d) :
    l * m ≤ moves a d := by
  intro word h
  obtain ⟨u, hu, w, hw, rfl⟩ := h
  obtain ⟨hup, hua⟩ := hl hu
  obtain ⟨hwp, hwa⟩ := hm hw
  refine ⟨passes_append.2 ⟨hup, ?_⟩, ?_⟩
  · rw [hua]
    exact hwp
  · rw [after_append, hua, hwa]

theorem add_le_moves {l m : Language Char} (hl : l ≤ moves a b) (hm : m ≤ moves a b) :
    l + m ≤ moves a b := by
  intro word h
  obtain h | h := h
  · exact hl h
  · exact hm h

theorem one_le_moves : 1 ≤ moves a a := by
  intro word h
  obtain rfl := h
  exact ⟨trivial, rfl⟩

theorem moves_le_moves_append (outer : List Bracket) :
    moves a b ≤ moves (a ++ outer) (b ++ outer) := by
  intro word h
  obtain ⟨hp, ha⟩ := h
  obtain ⟨hp', ha'⟩ := hp.within outer
  rw [ha] at ha'
  exact ⟨hp', ha'⟩

end Reading

/-- Whether the character may stand anywhere outside of tags and leaves the brackets as they are. -/
def isPlain (c : Char) : Bool := Text.isNameChar c || plainMarks.contains c

/-- The characters that matter to a reading. -/
def specialChars : List Char := ['(', ')', '[', ']', '\x7b', '\x7d', ',', ';', '\x60', '"']

theorem not_special_of_isPlain {c : Char} (h : isPlain c = true) : c ∉ specialChars := by
  have hs : specialChars.all (fun d => !isPlain d) = true := by decide
  intro hc
  have hn := List.all_eq_true.1 hs c hc
  rw [h] at hn
  cases hn

namespace Reading

variable {c : Char} {word : List Char} {a opened : List Bracket} {b : Bracket}

theorem ofOpening?_of_not_special (h : c ∉ specialChars) : Bracket.ofOpening? c = none := by
  simp only [specialChars, List.mem_cons, List.not_mem_nil, or_false, not_or] at h
  simp [Bracket.ofOpening?, Bracket.opening, Ne.symm h.1, Ne.symm h.2.2.1, Ne.symm h.2.2.2.2.1]

theorem ofClosing?_of_not_special (h : c ∉ specialChars) : Bracket.ofClosing? c = none := by
  simp only [specialChars, List.mem_cons, List.not_mem_nil, or_false, not_or] at h
  simp [Bracket.ofClosing?, Bracket.closing, Ne.symm h.2.1, Ne.symm h.2.2.2.1,
    Ne.symm h.2.2.2.2.2.1]

theorem next_plain (h : isPlain c = true) : next ⟨a, .plain⟩ c = ⟨a, .plain⟩ := by
  have hs := not_special_of_isPlain h
  have hr : c ≠ '\x60' := fun he => hs (by simp [specialChars, he])
  have hq : c ≠ '"' := fun he => hs (by simp [specialChars, he])
  simp [next, hr, hq, ofOpening?_of_not_special hs, ofClosing?_of_not_special hs]

theorem allows_plain (h : isPlain c = true) : Allows ⟨a, .plain⟩ c where
  known := by
    rw [isPlain, Bool.or_eq_true, List.contains_iff_mem] at h
    exact h.imp_right .inl
  closes b hb := by
    rw [ofClosing?_of_not_special (not_special_of_isPlain h)] at hb
    cases hb
  inside hc := by
    refine absurd ?_ (not_special_of_isPlain h)
    revert hc
    simp only [separators, tagQuotes, specialChars, List.mem_append, List.mem_cons,
      List.not_mem_nil]
    tauto

theorem moves_of_plain (h : word.all isPlain = true) : word ∈ moves a a := by
  induction word with
  | nil => exact ⟨trivial, rfl⟩
  | cons c word ih =>
    obtain ⟨hc, hw⟩ := Bool.and_eq_true_iff.1 (List.all_cons.symm.trans h)
    obtain ⟨hp, ha⟩ := ih hw
    have hn : next ⟨a, .plain⟩ c = ⟨a, .plain⟩ := next_plain hc
    refine ⟨⟨fun _ => allows_plain hc, ?_⟩, ?_⟩
    · rw [hn]
      exact hp
    · rw [after, List.foldl_cons, hn]
      exact ha

theorem opening_moves (b : Bracket) : [b.opening] ∈ moves a (b :: a) := by
  have ho : Bracket.ofOpening? b.opening = some b := by cases b <;> rfl
  have hc : Bracket.ofClosing? b.opening = none := by cases b <;> rfl
  have hi : b.opening ∉ separators ++ tagQuotes := by cases b <;> decide
  have ha : Allows ⟨a, .plain⟩ b.opening :=
    ⟨by simp [ho], by simp [hc], fun h => absurd h hi⟩
  exact ⟨⟨fun _ => ha, trivial⟩, by cases b <;> rfl⟩

theorem closing_moves (b : Bracket) : [b.closing] ∈ moves (b :: a) a := by
  have hc : Bracket.ofClosing? b.closing = some b := by cases b <;> rfl
  have ha : Allows ⟨b :: a, .plain⟩ b.closing :=
    ⟨by simp [hc], by simp [hc], fun _ => List.cons_ne_nil _ _⟩
  exact ⟨⟨fun _ => ha, trivial⟩, by cases b <;> rfl⟩

theorem separator_moves (h : c ∈ separators) : [c] ∈ moves (b :: a) (b :: a) := by
  obtain rfl | rfl : c = ',' ∨ c = ';' := by simpa [separators] using h
  · exact ⟨⟨fun _ => ⟨by simp [separators], nofun, fun _ => List.cons_ne_nil _ _⟩, trivial⟩, rfl⟩
  · exact ⟨⟨fun _ => ⟨by simp [separators], nofun, fun _ => List.cons_ne_nil _ _⟩, trivial⟩, rfl⟩

theorem tagQuote_allowed (h : c ∈ tagQuotes) : Allows ⟨b :: a, .plain⟩ c := by
  have hc : Bracket.ofClosing? c = none := by
    obtain rfl | rfl : c = '\x60' ∨ c = '"' := by simpa [tagQuotes] using h
    · rfl
    · rfl
  exact ⟨by simp [h], by simp [hc], fun _ => List.cons_ne_nil _ _⟩

theorem passes_raw (opened : List Bracket) {body : List Char} (h : ∀ c ∈ body, c ≠ '\x60') :
    Passes ⟨opened, .raw⟩ (body ++ ['\x60']) ∧
      after ⟨opened, .raw⟩ (body ++ ['\x60']) = ⟨opened, .plain⟩ := by
  induction body with
  | nil => exact ⟨⟨nofun, trivial⟩, rfl⟩
  | cons c body ih =>
    obtain ⟨hc, hb⟩ := List.forall_mem_cons.1 h
    obtain ⟨hp, ha⟩ := ih hb
    have hn : next ⟨opened, .raw⟩ c = ⟨opened, .raw⟩ := by simp [next, hc]
    refine ⟨⟨nofun, ?_⟩, ?_⟩
    · rw [hn]
      exact hp
    · rw [List.cons_append, after, List.foldl_cons, hn]
      exact ha

end Reading

end SlogHelpers.Source
