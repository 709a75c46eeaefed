import Mathlib.Data.List.Sort
import SlogHelpers.Proofs.Lists
import SlogHelpers.SortedMap

/-!
The keys of a map, and what a look-up finds in it and in the map of a list of entries. Look-ups are
all that there is to a map.
-/
namespace SlogHelpers.SortedMap

theorem map_get?_eq {κ α β : Type} [LT κ] [DecidableEq κ] (m : SortedMap κ α) (f : α → β) (k : κ) :
    (m.get? k).map f = ((m.keys.zip (m.values.map f)).find? (·.1 = k)).map Prod.snd := by
  have hz : m.keys.zip (m.values.map f) = m.toList.map fun entry => (entry.1, f entry.2) := by
    rw [keys, values, List.map_map, List.zip_map']
    rfl
  rw [hz, List.find?_map, get?, Option.map_map, Option.map_map]
  rfl

section Keys

variable {κ α : Type} [LT κ] [LE κ] [Std.LawfulOrderLT κ]

theorem nodup_keys (m : SortedMap κ α) : m.keys.Nodup := by
  refine List.pairwise_map.2 (m.ascending.imp ?_)
  intro a b h he
  rw [he] at h
  exact Std.lt_irrefl h

theorem get?_eq_some [DecidableEq κ] {m : SortedMap κ α} {k : κ} {v : α} :
    m.get? k = some v ↔ (k, v) ∈ m.toList := by
  rw [get?, Option.map_eq_some_iff]
  constructor
  · rintro ⟨entry, hf, rfl⟩
    have hk : entry.1 = k := by simpa using List.find?_some hf
    rw [← hk]
    exact List.mem_of_find?_eq_some hf
  · intro hm
    refine ⟨(k, v),
      Lists.find?_eq_some_of_unique hm (decide_eq_true rfl) fun entry he hk => ?_, rfl⟩
    exact List.inj_on_of_nodup_map m.nodup_keys he hm (of_decide_eq_true hk)

theorem ext [Std.IsLinearOrder κ] [DecidableEq κ] {m n : SortedMap κ α}
    (h : ∀ k, m.get? k = n.get? k) : m = n := by
  have hl : m.toList = n.toList := by
    have : Std.Irrefl fun a b : κ × α => a.1 < b.1 := ⟨fun a => Std.lt_irrefl⟩
    have : Std.Antisymm fun a b : κ × α => a.1 < b.1 := 
      ⟨fun a b hab hba => absurd (Std.lt_trans hab hba) Std.lt_irrefl⟩
    refine m.ascending.eq_of_mem_iff n.ascending fun entry => ?_
    rw [← get?_eq_some, h, get?_eq_some]
  obtain ⟨es, hes⟩ := m
  subst hl
  rfl

end Keys

variable {κ α : Type} [LT κ] [DecidableLT κ] [LE κ] [Std.IsLinearOrder κ] [Std.LawfulOrderLT κ]

theorem ofList_append_singleton (entries : List (κ × α)) (entry : κ × α) :
    ofList (entries ++ [entry]) = (ofList entries).insert entry.1 entry.2 := by
  rw [ofList, List.foldl_append]
  rfl

theorem isEmpty_insert (m : SortedMap κ α) (k : κ) (v : α) : (m.insert k v).isEmpty = false := by
  change (insertInto k v m.toList).isEmpty = false
  cases m.toList with
  | nil => rfl
  | cons entry rest =>
    rw [insertInto]
    split
    · rfl
    · split
      · rfl
      · rfl

theorem isEmpty_ofList (entries : List (κ × α)) : (ofList entries).isEmpty = entries.isEmpty := by
  cases entries using List.reverseRecOn with
  | nil => rfl
  | append_singleton entries entry =>
    rw [ofList_append_singleton, isEmpty_insert]
    simp

/-- Of the entries with a key, the last one counts. -/
theorem get?_ofList [DecidableEq κ] (entries : List (κ × α)) (k : κ) :
    (ofList entries).get? k = Lists.lastAt? entries k := by
  induction entries using List.reverseRecOn with
  | nil => rfl
  | append_singleton entries entry ih =>
    rw [ofList_append_singleton, get?_insert, ih, Lists.lastAt?_append, Lists.lastAt?_singleton]
    by_cases hk : k = entry.1
    · rw [if_pos hk, if_pos hk.symm, Option.some_or]
    · rw [if_neg hk, if_neg (Ne.symm hk), Option.none_or]

theorem mem_of_mem_ofList [DecidableEq κ] {entries : List (κ × α)} {entry : κ × α}
    (h : entry ∈ (ofList entries).toList) : entry ∈ entries := by
  have hl : Lists.lastAt? entries entry.1 = some entry.2 :=
    (get?_ofList ..).symm.trans (get?_eq_some.2 h)
  exact Lists.mem_of_lastAt? hl

theorem ofList_toList [DecidableEq κ] (m : SortedMap κ α) : ofList m.toList = m := by
  refine ext fun k => ?_
  rw [get?_ofList]
  refine Option.ext fun v => ?_
  rw [get?_eq_some, Lists.lastAt?_eq_some_iff_mem m.nodup_keys]

end SlogHelpers.SortedMap
