import SlogHelpers.Proofs.Lists
import SlogHelpers.Proofs.Source.Identifier
import SlogHelpers.Proofs.Source.Literal

/-!
Texts that can be told from what follows them: where the texts of two things, each with something
behind it, are equal, the things are equal and so is what is behind them.
-/
namespace SlogHelpers.Source

variable {α : Type} {things : α → Prop} {text : α → List Char} {ends : Char → Prop}
  {rest : List Char}

/-- Nothing follows, or something that begins with one of these. -/
def BeginsIn (ends : Char → Prop) (rest : List Char) : Prop := ∀ c ∈ rest.head?, ends c

theorem beginsIn_true (rest : List Char) : BeginsIn (fun _ => True) rest := fun _ _ => trivial

theorem beginsIn_nil : BeginsIn ends [] := fun c hc => by cases hc

theorem beginsIn_cons {c : Char} (h : ends c) (rest : List Char) : BeginsIn ends (c :: rest) := by
  intro d hd
  rw [List.head?_cons] at hd
  exact Option.some.inj hd ▸ h

/-- The texts of these things can be split off the front of any text in which they are followed by
what may follow. -/
def Delimited (things : α → Prop) (text : α → List Char) (ends : Char → Prop) : Prop :=
  ∀ ⦃a b rest rest'⦄, things a → things b → BeginsIn ends rest → BeginsIn ends rest' →
    text a ++ rest = text b ++ rest' → a = b ∧ rest = rest'

/-- What follows does not go on with a name. -/
abbrev EndsName (rest : List Char) : Prop := BeginsIn (Text.isNameChar · = false) rest

theorem takeWhile_identifier_append {name : List Char} (h : isIdentifierChars name = true)
    (hr : EndsName rest) :
    (name ++ rest).takeWhile Text.isNameChar = name := by
  have hrest : rest.takeWhile Text.isNameChar = [] := by
    cases rest with
    | nil => rfl
    | cons c rest => exact List.takeWhile_cons_of_neg (by simp [hr c rfl])
  rw [List.takeWhile_append_of_pos fun c hc => isNameChar_of_mem h hc, hrest, List.append_nil]

theorem dropWhile_identifier_append {name : List Char} (h : isIdentifierChars name = true)
    (hr : EndsName rest) :
    (name ++ rest).dropWhile Text.isNameChar = rest := by
  have hs := List.takeWhile_append_dropWhile (p := Text.isNameChar) (l := name ++ rest)
  rw [takeWhile_identifier_append h hr] at hs
  exact List.append_cancel_left hs

/-- An identifier ends where no character of a name follows. -/
theorem identifier_delimited :
    Delimited (isIdentifier · = true) String.toList (Text.isNameChar · = false) := by
  intro s t rest rest' hs ht hr hr' h
  have hst : s = t := by
    refine String.toList_injective ?_
    rw [← takeWhile_identifier_append hs hr, h, takeWhile_identifier_append ht hr']
  subst hst
  exact ⟨rfl, List.append_cancel_left h⟩

theorem literal_delimited :
    Delimited (fun _ => True) (fun s => (literal s).toList) (fun _ => True) := by
  intro s t rest rest' _ _ _ _ h
  have hread := Interpreted.text?_literal s rest
  rw [h, Interpreted.text?_literal, Option.some.injEq, Prod.mk.injEq] at hread
  exact ⟨hread.1.symm, hread.2.symm⟩

namespace Delimited

section Sequences

variable {c : Char} {word : List Char} {as bs : List α} {rest' : List Char}

theorem beginsIn_flatMap (hw : ∀ a, c :: word <+: text a) (hc : ends c) (hr : BeginsIn ends rest)
    (as : List α) :
    BeginsIn ends (as.flatMap text ++ rest) := by
  cases as with
  | nil => exact hr
  | cons a as =>
    obtain ⟨more, hmore⟩ := hw a
    rw [List.flatMap_cons, ← hmore]
    exact beginsIn_cons hc _

/-- Things in a row, each of which begins in a way that what follows the last one does not. -/
theorem flatMap (h : Delimited things text ends) (hw : ∀ a, c :: word <+: text a) (hc : ends c)
    (has : ∀ a ∈ as, things a) (hbs : ∀ b ∈ bs, things b) (hr : BeginsIn ends rest)
    (hr' : BeginsIn ends rest') (hn : ¬ c :: word <+: rest) (hn' : ¬ c :: word <+: rest')
    (he : as.flatMap text ++ rest = bs.flatMap text ++ rest') :
    as = bs ∧ rest = rest' := by
  have hstart (a : α) (more : List α) (last : List Char) :
      c :: word <+: (a :: more).flatMap text ++ last := by
    rw [List.flatMap_cons, List.append_assoc]
    exact (hw a).trans (List.prefix_append _ _)
  induction as generalizing bs with
  | nil =>
    cases bs with
    | nil => exact ⟨rfl, he⟩
    | cons b bs =>
      have hp := hstart b bs rest'
      rw [← he] at hp
      exact absurd hp hn
  | cons a as ih =>
    cases bs with
    | nil =>
      have hp := hstart a as rest
      rw [he] at hp
      exact absurd hp hn'
    | cons b bs =>
      obtain ⟨ha, has⟩ := List.forall_mem_cons.1 has
      obtain ⟨hb, hbs⟩ := List.forall_mem_cons.1 hbs
      rw [List.flatMap_cons, List.flatMap_cons, List.append_assoc, List.append_assoc] at he
      obtain ⟨hab, he⟩ := h ha hb (beginsIn_flatMap hw hc hr as) (beginsIn_flatMap hw hc hr' bs) he
      obtain ⟨habs, hrest⟩ := ih has hbs he
      exact ⟨by rw [hab, habs], hrest⟩

end Sequences

end Delimited

end SlogHelpers.Source
