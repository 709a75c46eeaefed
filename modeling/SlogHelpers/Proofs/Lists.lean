import Mathlib.Data.List.Induction
import Mathlib.Data.List.Nodup

/-!
Lists that grow at their end, look-ups in lists of entries, of the last one with a key and of the
only one, and lists read element by element.
-/
namespace SlogHelpers.Lists

variable {α β : Type}

theorem append_singleton_eq_append_cons {xs before after : List α} {x y : α}
    (h : xs ++ [x] = before ++ y :: after) :
    (before = xs ∧ y = x ∧ after = []) ∨
      ∃ rest, after = rest ++ [x] ∧ xs = before ++ y :: rest := by
  cases after using List.reverseRecOn with
  | nil =>
    have hs := List.append_inj' h rfl
    exact .inl ⟨hs.1.symm, (List.cons.inj hs.2).1.symm, rfl⟩
  | append_singleton rest z =>
    rw [← List.cons_append, ← List.append_assoc] at h
    have hs := List.append_inj' h rfl
    exact .inr ⟨rest, by rw [(List.cons.inj hs.2).1], hs.1⟩

theorem nodup_filterMap_snoc (taken : List β) (xs : List α) (x : α) (f : α → Option β) :
    (taken ++ (xs ++ [x]).filterMap f).Nodup ↔
      (taken ++ xs.filterMap f).Nodup ∧ ∀ y ∈ f x, y ∉ taken ++ xs.filterMap f := by
  cases h : f x with
  | none => simp [h]
  | some y =>
    have hs : taken ++ (xs ++ [x]).filterMap f = taken ++ xs.filterMap f ++ [y] := by simp [h]
    rw [hs, List.perm_append_comm.nodup_iff, List.singleton_append, List.nodup_cons, and_comm]
    simp only [Option.mem_some, forall_eq']

theorem append_cons_inj {xs ys as bs : List α} {x : α} (hx : x ∉ xs) (hy : x ∉ ys)
    (h : xs ++ x :: as = ys ++ x :: bs) : xs = ys ∧ as = bs := by
  induction xs generalizing ys with
  | nil =>
    cases ys with
    | nil => exact ⟨rfl, (List.cons.inj h).2⟩
    | cons y ys => exact absurd (List.cons.inj h).1 (List.ne_of_not_mem_cons hy)
  | cons z xs ih =>
    cases ys with
    | nil => exact absurd (List.cons.inj h).1.symm (List.ne_of_not_mem_cons hx)
    | cons y ys =>
      obtain ⟨rfl, ht⟩ := List.cons.inj h
      obtain ⟨rfl, hr⟩ := ih (List.not_mem_of_not_mem_cons hx) (List.not_mem_of_not_mem_cons hy) ht
      exact ⟨rfl, hr⟩

theorem lookup_eq_some_iff_mem [BEq α] [LawfulBEq α] {entries : List (α × β)} {k : α} {v : β}
    (h : (entries.map Prod.fst).Nodup) : entries.lookup k = some v ↔ (k, v) ∈ entries := by
  induction entries with
  | nil => simp
  | cons entry rest ih =>
    obtain ⟨x, w⟩ := entry
    obtain ⟨hx, hrest⟩ := List.nodup_cons.1 h
    by_cases hk : k = x
    · subst hk
      have hm : (k, v) ∉ rest := fun hm => hx (List.mem_map.2 ⟨_, hm, rfl⟩)
      simp [hm, eq_comm]
    · have hb : (k == x) = false := by simpa using hk
      rw [List.lookup_cons, hb, List.mem_cons]
      simpa [hk] using ih hrest

def lastAt? [DecidableEq α] (entries : List (α × β)) (k : α) : Option β :=
  (entries.filter (·.1 = k)).getLast?.map Prod.snd

theorem lastAt?_append [DecidableEq α] (entries more : List (α × β)) (k : α) :
    lastAt? (entries ++ more) k = (lastAt? more k).or (lastAt? entries k) := by
  rw [lastAt?, List.filter_append, List.getLast?_append]
  exact Option.map_or

theorem lastAt?_singleton [DecidableEq α] (entry : α × β) (k : α) :
    lastAt? [entry] k = if entry.1 = k then some entry.2 else none := by
  by_cases hk : entry.1 = k
  · simp [lastAt?, hk]
  · simp [lastAt?, hk]

theorem mem_of_lastAt? [DecidableEq α] {entries : List (α × β)} {k : α} {v : β}
    (h : lastAt? entries k = some v) :
    (k, v) ∈ entries := by
  obtain ⟨entry, hl, rfl⟩ := Option.map_eq_some_iff.1 h
  obtain ⟨hm, hk⟩ := List.mem_filter.1 (List.mem_of_getLast? hl)
  rw [← of_decide_eq_true hk]
  exact hm

theorem lastAt?_eq_some_iff_mem [DecidableEq α] {entries : List (α × β)} {k : α} {v : β}
    (h : (entries.map Prod.fst).Nodup) : lastAt? entries k = some v ↔ (k, v) ∈ entries := by
  refine ⟨mem_of_lastAt?, fun hm => ?_⟩
  have hs : (lastAt? entries k).isSome := by
    simpa [lastAt?] using ⟨v, hm⟩
  obtain ⟨w, hw⟩ := Option.isSome_iff_exists.1 hs
  have he := List.inj_on_of_nodup_map h (mem_of_lastAt? hw) hm rfl
  rw [hw, (Prod.mk.inj he).2]

theorem find?_eq_some_of_unique {p : α → Bool} {xs : List α} {x : α} (hx : x ∈ xs) (hp : p x = true)
    (hu : ∀ y ∈ xs, p y = true → y = x) : xs.find? p = some x := by
  cases hf : xs.find? p with
  | none => exact absurd hp (List.find?_eq_none.1 hf x hx)
  | some y =>
    have hy := hu y (List.mem_of_find?_eq_some hf) (List.find?_some hf)
    rw [hy]

theorem takeWhile_append_cons_of_neg {p : α → Bool} {xs rest : List α} {x : α} (hx : p x = false) :
    (xs ++ x :: rest).takeWhile p = xs.takeWhile p := by
  induction xs with
  | nil => exact List.takeWhile_cons_of_neg (by simp [hx])
  | cons y xs ih => by_cases hy : p y = true <;> simp [hy, ih]

theorem dropWhile_append_cons_of_neg {p : α → Bool} {xs rest : List α} {x : α} (hx : p x = false) :
    (xs ++ x :: rest).dropWhile p = xs.dropWhile p ++ x :: rest := by
  induction xs with
  | nil => exact List.dropWhile_cons_of_neg (by simp [hx])
  | cons y xs ih => by_cases hy : p y = true <;> simp [hy, ih]

theorem findSome?_congr {f g : α → Option β} {xs : List α} (h : ∀ x ∈ xs, f x = g x) :
    xs.findSome? f = xs.findSome? g := by
  induction xs with
  | nil => rfl
  | cons x rest ih =>
    obtain ⟨hx, hrest⟩ := List.forall_mem_cons.1 h
    rw [List.findSome?_cons, List.findSome?_cons, hx, ih hrest]

theorem mapM_map_eq_some {γ : Type} {xs : List α} {f : α → β} {g : β → Option γ} {h : α → γ}
    (hx : ∀ x ∈ xs, g (f x) = some (h x)) : (xs.map f).mapM g = some (xs.map h) := by
  induction xs with
  | nil => rfl
  | cons x rest ih =>
    obtain ⟨hx, hrest⟩ := List.forall_mem_cons.1 hx
    rw [List.map_cons, List.mapM_cons, hx, ih hrest]
    rfl

theorem intercalate_take_prefix (between : List α) (xs : List (List α)) (n : Nat) :
    between.intercalate (xs.take n) <+: between.intercalate xs := by
  induction xs generalizing n with
  | nil => simp
  | cons x rest ih =>
    cases n with
    | zero => simp
    | succ k =>
      cases rest with
      | nil => simp
      | cons y rest =>
        cases k with
        | zero => simp [List.intercalate_cons_cons]
        | succ j =>
          have h := ih (j + 1)
          simp only [List.take_succ_cons, List.intercalate_cons_cons] at h ⊢
          exact (List.prefix_append_right_inj _).2 h

end SlogHelpers.Lists
