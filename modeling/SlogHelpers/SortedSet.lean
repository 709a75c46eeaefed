/-!
Finite sets kept as strictly ascending lists, so that two sets with the same members are equal and
every walk over a set meets its members in one order.
-/
namespace SlogHelpers

variable {κ : Type} [LT κ]

/-- A finite set of keys. -/
structure SortedSet (κ : Type) [LT κ] where
  toList : List κ
  ascending : toList.Pairwise (· < ·)

namespace SortedSet

instance [DecidableEq κ] : DecidableEq (SortedSet κ) := fun a b =>
  if h : a.toList = b.toList then .isTrue (by cases a; cases b; cases h; rfl)
  else .isFalse (fun e => h (congrArg SortedSet.toList e))

def empty : SortedSet κ := ⟨[], List.Pairwise.nil⟩

instance : Inhabited (SortedSet κ) := ⟨empty⟩

instance : Membership κ (SortedSet κ) := ⟨fun s k => k ∈ s.toList⟩

@[simp] theorem mem_toList {s : SortedSet κ} {k : κ} : k ∈ s.toList ↔ k ∈ s := Iff.rfl

variable [DecidableLT κ]

/-- Puts `k` in its place in an ascending list, which keeps a `k` it already has. -/
def insertInto (k : κ) : List κ → List κ
  | [] => [k]
  | x :: rest =>
    if k < x then k :: x :: rest else if x < k then x :: insertInto k rest else x :: rest

variable [LE κ] [Std.IsLinearOrder κ] [Std.LawfulOrderLT κ]

theorem mem_insertInto {k y : κ} {xs : List κ} : y ∈ insertInto k xs ↔ y = k ∨ y ∈ xs := by
  induction xs with
  | nil => simp [insertInto]
  | cons x rest ih =>
    rw [insertInto]
    split
    · simp
    · split
      · simp only [List.mem_cons, ih]
        constructor
        · rintro (h | h | h) <;> simp [h]
        · rintro (h | h | h) <;> simp [h]
      · next h₁ h₂ =>
        have : k = x := Std.le_antisymm (Std.not_lt.1 h₂) (Std.not_lt.1 h₁)
        simp [this]

theorem insertInto_ascending {k : κ} {xs : List κ} (h : xs.Pairwise (· < ·)) :
    (insertInto k xs).Pairwise (· < ·) := by
  induction xs with
  | nil => simp [insertInto]
  | cons x rest ih =>
    obtain ⟨hx, hrest⟩ := List.pairwise_cons.1 h
    rw [insertInto]
    split
    · next hk =>
      refine List.pairwise_cons.2 ⟨fun y hy => ?_, h⟩
      rcases List.mem_cons.1 hy with rfl | hy
      · exact hk
      · exact Std.lt_trans hk (hx y hy)
    · split
      · next hk =>
        refine List.pairwise_cons.2 ⟨fun y hy => ?_, ih hrest⟩
        rcases mem_insertInto.1 hy with rfl | hy
        · exact hk
        · exact hx y hy
      · exact h

def insert (s : SortedSet κ) (k : κ) : SortedSet κ :=
  ⟨insertInto k s.toList, insertInto_ascending s.ascending⟩

/-- The set of a list's elements. -/
def ofList (ks : List κ) : SortedSet κ :=
  ks.foldl insert empty

def isEmpty (s : SortedSet κ) : Bool := s.toList.isEmpty

@[simp] theorem mem_insert {s : SortedSet κ} {k y : κ} : y ∈ s.insert k ↔ y = k ∨ y ∈ s :=
  mem_insertInto

end SortedSet
end SlogHelpers
