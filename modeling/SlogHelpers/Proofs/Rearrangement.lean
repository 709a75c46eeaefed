import Mathlib.Data.List.FinRange
import Mathlib.Data.List.Sort

/-!
Lists with the same elements in an order that differs only among elements with different keys.
-/
namespace SlogHelpers

variable {α κ : Type} {key : α → κ} {xs ys : List α}

/-- Every element of the one list has its own place in the other, where elements with the same key
keep their order. -/
def Rearranges (key : α → κ) (xs ys : List α) : Prop :=
  ∃ place : Fin xs.length ≃ Fin ys.length, (∀ i, ys.get (place i) = xs.get i) ∧
    ∀ i j, i < j → key (xs.get i) = key (xs.get j) → place i < place j

theorem get_symm {place : Fin xs.length ≃ Fin ys.length} (hplace : ∀ i, ys.get (place i) = xs.get i)
    (p : Fin ys.length) : xs.get (place.symm p) = ys.get p := by
  rw [← hplace, place.apply_symm_apply]

theorem Rearranges.mem_iff (h : Rearranges key xs ys) (x : α) : x ∈ xs ↔ x ∈ ys := by
  obtain ⟨place, hplace, -⟩ := h
  rw [List.mem_iff_get, List.mem_iff_get]
  constructor
  · rintro ⟨i, rfl⟩
    exact ⟨place i, hplace i⟩
  · rintro ⟨p, rfl⟩
    exact ⟨place.symm p, get_symm hplace p⟩

variable [DecidableEq κ]

/-- The places of the elements with the key `k`. -/
def placesOf (key : α → κ) (xs : List α) (k : κ) : List (Fin xs.length) :=
  (List.finRange xs.length).filter fun i => key (xs.get i) = k

theorem mem_placesOf {k : κ} {i : Fin xs.length} : i ∈ placesOf key xs k ↔ key (xs.get i) = k := by
  simp [placesOf]

theorem pairwise_placesOf (key : α → κ) (xs : List α) (k : κ) :
    (placesOf key xs k).Pairwise (· < ·) :=
  (List.pairwise_lt_finRange xs.length).filter _

theorem map_get_placesOf (key : α → κ) (xs : List α) (k : κ) :
    (placesOf key xs k).map xs.get = xs.filter (key · = k) := by
  conv_rhs => rw [← List.map_get_finRange xs, List.filter_map]
  rfl

/-- The places that the elements of a key take are, in order, those of that key. -/
theorem map_placesOf {place : Fin xs.length ≃ Fin ys.length}
    (hplace : ∀ i, ys.get (place i) = xs.get i)
    (horder : ∀ i j, i < j → key (xs.get i) = key (xs.get j) → place i < place j) (k : κ) :
    (placesOf key xs k).map place = placesOf key ys k := by
  have hascending : ((placesOf key xs k).map place).Pairwise (· < ·) := by
    refine List.pairwise_map.2
      ((pairwise_placesOf key xs k).imp_of_mem fun hi hj hlt => horder _ _ hlt ?_)
    rw [mem_placesOf.1 hi, mem_placesOf.1 hj]
  refine hascending.eq_of_mem_iff (pairwise_placesOf key ys k) fun p => ?_
  rw [List.mem_map, mem_placesOf]
  constructor
  · rintro ⟨i, hi, rfl⟩
    rw [hplace]
    exact mem_placesOf.1 hi
  · intro hp
    refine ⟨place.symm p, mem_placesOf.2 ?_, place.apply_symm_apply p⟩
    rw [get_symm hplace, hp]

theorem Rearranges.filter_eq (h : Rearranges key xs ys) (k : κ) :
    xs.filter (key · = k) = ys.filter (key · = k) := by
  obtain ⟨place, hplace, horder⟩ := h
  calc xs.filter (key · = k)
    _ = (placesOf key xs k).map xs.get := (map_get_placesOf key xs k).symm
    _ = (placesOf key xs k).map (ys.get ∘ place) := List.map_congr_left fun i _ => (hplace i).symm
    _ = (placesOf key ys k).map ys.get := by rw [← List.map_map, map_placesOf hplace horder]
    _ = ys.filter (key · = k) := map_get_placesOf key ys k

end SlogHelpers
