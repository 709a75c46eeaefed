/-!
Finite maps kept as lists of entries with strictly ascending keys, so that two maps with the same
look-ups are equal and every walk over a map meets its keys in one order.
-/
namespace SlogHelpers

variable {κ α : Type} [LT κ] [DecidableLT κ]

/-- A finite map from keys to values. -/
structure SortedMap (κ α : Type) [LT κ] where
  toList : List (κ × α)
  ascending : toList.Pairwise (fun a b => a.1 < b.1)

namespace SortedMap

instance [DecidableEq κ] [DecidableEq α] : DecidableEq (SortedMap κ α) := fun a b =>
  if h : a.toList = b.toList then .isTrue (by cases a; cases b; cases h; rfl)
  else .isFalse (fun e => h (congrArg SortedMap.toList e))

def empty : SortedMap κ α := ⟨[], List.Pairwise.nil⟩

instance : Inhabited (SortedMap κ α) := ⟨empty⟩

/-- Puts the entry in its place in an ascending list, where it takes the place of one with its
key. -/
def insertInto (k : κ) (v : α) : List (κ × α) → List (κ × α)
  | [] => [(k, v)]
  | e :: rest =>
    if k < e.1 then (k, v) :: e :: rest
    else if e.1 < k then e :: insertInto k v rest
    else (k, v) :: rest

theorem key_of_mem_insertInto {k : κ} {v : α} {e : κ × α} {es : List (κ × α)}
    (h : e ∈ insertInto k v es) : e.1 = k ∨ e ∈ es := by
  induction es with
  | nil => simp only [insertInto, List.mem_singleton] at h; simp [h]
  | cons x rest ih =>
    rw [insertInto] at h
    split at h
    · rcases List.mem_cons.1 h with rfl | h
      · exact .inl rfl
      · exact .inr h
    · split at h
      · rcases List.mem_cons.1 h with rfl | h
        · exact .inr List.mem_cons_self
        · exact (ih h).imp_right (List.mem_cons_of_mem _)
      · rcases List.mem_cons.1 h with rfl | h
        · exact .inl rfl
        · exact .inr (List.mem_cons_of_mem _ h)

variable [LE κ] [Std.IsLinearOrder κ] [Std.LawfulOrderLT κ]

theorem insertInto_ascending {k : κ} {v : α} {es : List (κ × α)}
    (h : es.Pairwise (fun a b => a.1 < b.1)) :
    (insertInto k v es).Pairwise (fun a b => a.1 < b.1) := by
  induction es with
  | nil => simp [insertInto]
  | cons x rest ih =>
    obtain ⟨hx, hrest⟩ := List.pairwise_cons.1 h
    rw [insertInto]
    split
    · next hk =>
      refine List.pairwise_cons.2 ⟨fun y hy => ?_, h⟩
      rcases List.mem_cons.1 hy with rfl | hy
      · exact hk
      · exact Std.lt_trans hk (hx y hy)
    · next h₁ =>
      split
      · next hk =>
        refine List.pairwise_cons.2 ⟨fun y hy => ?_, ih hrest⟩
        rcases key_of_mem_insertInto hy with hy | hy
        · exact hy ▸ hk
        · exact hx y hy
      · next h₂ =>
        have he : k = x.1 := Std.le_antisymm (Std.not_lt.1 h₂) (Std.not_lt.1 h₁)
        exact List.pairwise_cons.2 ⟨fun y hy => he ▸ hx y hy, hrest⟩

def insert (m : SortedMap κ α) (k : κ) (v : α) : SortedMap κ α :=
  ⟨insertInto k v m.toList, insertInto_ascending m.ascending⟩

/-- The map of a list of entries, in which a later entry takes the place of an earlier one with
the same key. -/
def ofList (es : List (κ × α)) : SortedMap κ α :=
  es.foldl (fun m e => m.insert e.1 e.2) empty

def get? [DecidableEq κ] (m : SortedMap κ α) (k : κ) : Option α :=
  (m.toList.find? (·.1 = k)).map (·.2)

def keys (m : SortedMap κ α) : List κ := m.toList.map (·.1)

def values (m : SortedMap κ α) : List α := m.toList.map (·.2)

def isEmpty (m : SortedMap κ α) : Bool := m.toList.isEmpty

/-- A look-up after an insertion finds the new value at its key and the old values elsewhere. -/
@[simp] theorem get?_insert [DecidableEq κ] (m : SortedMap κ α) (k x : κ) (v : α) :
    (m.insert k v).get? x = if x = k then some v else m.get? x := by
  obtain ⟨es, hes⟩ := m
  simp only [get?, insert]
  induction es with
  | nil => by_cases h : x = k <;> simp [insertInto, h, eq_comm]
  | cons e rest ih =>
    have ih := ih (List.pairwise_cons.1 hes).2
    rw [insertInto]
    split
    · by_cases h : x = k <;> simp [h, eq_comm]
    · split
      · next h₁ hk =>
        by_cases he : e.1 = x
        · have hx : x ≠ k := fun h => Std.lt_irrefl (show k < k from (he.trans h) ▸ hk)
          simp [he, hx]
        · simpa [he] using ih
      · next h₁ h₂ =>
        have he : k = e.1 := Std.le_antisymm (Std.not_lt.1 h₂) (Std.not_lt.1 h₁)
        by_cases h : k = x
        · simp [h]
        · have hx : ¬ e.1 = x := fun hx => h (he.trans hx)
          simp [h, hx, Ne.symm h]

end SortedMap
end SlogHelpers
