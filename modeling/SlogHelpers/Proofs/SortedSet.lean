import Mathlib.Data.List.Induction
import Mathlib.Data.List.Sort
import SlogHelpers.SortedSet

/-!
The members of the set of a list, which are all that there is to a set.
-/
namespace SlogHelpers.SortedSet

section Members

variable {κ : Type} [LT κ] [LE κ] [Std.IsLinearOrder κ] [Std.LawfulOrderLT κ]

theorem ext {s t : SortedSet κ} (h : ∀ k, k ∈ s ↔ k ∈ t) : s = t := by
  obtain ⟨xs, hxs⟩ := s
  obtain ⟨ys, hys⟩ := t
  have hl : xs = ys := hxs.eq_of_mem_iff hys h
  subst hl
  rfl

end Members

variable {κ : Type} [LT κ] [DecidableLT κ] [LE κ] [Std.IsLinearOrder κ] [Std.LawfulOrderLT κ]

theorem mem_ofList {ks : List κ} {k : κ} : k ∈ ofList ks ↔ k ∈ ks := by
  induction ks using List.reverseRecOn with
  | nil => exact Iff.rfl
  | append_singleton ks x ih =>
    rw [ofList, List.foldl_append, List.foldl_cons, List.foldl_nil, mem_insert, ← ofList, ih,
      List.mem_append, List.mem_singleton, or_comm]

theorem ofList_append_of_mem {s : SortedSet κ} {ks : List κ} (h : ∀ k ∈ ks, k ∈ s) :
    ofList (s.toList ++ ks) = s := by
  refine ext fun k => ?_
  rw [mem_ofList, List.mem_append]
  exact ⟨fun hk => hk.elim id (h k), .inl⟩

theorem ofList_toList (s : SortedSet κ) : ofList s.toList = s := by
  have hs : ofList (s.toList ++ []) = s := ofList_append_of_mem nofun
  rwa [List.append_nil] at hs

end SlogHelpers.SortedSet
