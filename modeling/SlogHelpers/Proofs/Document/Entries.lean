import Mathlib.Data.List.Basic
import SlogHelpers.Document
import SlogHelpers.Proofs.Lists

/-!
What an entry keeps of the pairs it is made from: each key once, in the place where it first came
and with the value that came last. Only pairs with distinct keys are kept as they came.
-/
namespace SlogHelpers.Entry
open SlogHelpers.Lists

variable {α β : Type} {pairs : List (String × α)} {keys : List String} {key : String} {value : α}

/-- The keys in the order in which they first come, each with its last value. -/
def lastOfEach (pairs : List (String × α)) : List (String × α) :=
  (pairs.map Prod.fst).eraseDups.filterMap fun key => (lastAt? pairs key).map (key, ·)

/-! ## Keys without repetitions -/

theorem eraseDups_concat (xs : List String) (x : String) :
    (xs ++ [x]).eraseDups = if x ∈ xs then xs.eraseDups else xs.eraseDups ++ [x] := by
  rw [List.eraseDups_append]
  by_cases hx : x ∈ xs
  · simp [List.removeAll, hx]
  · simp [List.removeAll, hx, List.eraseDups_cons]

theorem nodup_eraseDups (xs : List String) : xs.eraseDups.Nodup := by
  induction xs using List.reverseRecOn with
  | nil => simp
  | append_singleton xs x ih =>
    rw [eraseDups_concat]
    split
    · exact ih
    · next hx =>
      refine List.nodup_append.2 ⟨ih, by simp, fun a ha b hb => ?_⟩
      rintro rfl
      rw [List.mem_singleton] at hb
      exact hx (List.mem_eraseDups.1 (hb ▸ ha))

theorem length_eraseDups_le (xs : List String) : xs.eraseDups.length ≤ xs.length := by
  induction xs using List.reverseRecOn with
  | nil => simp
  | append_singleton xs x ih =>
    rw [eraseDups_concat]
    split <;> simp <;> omega

theorem isSome_lastAt? : (lastAt? pairs key).isSome ↔ key ∈ pairs.map Prod.fst := by
  simp [lastAt?]

theorem keys_filterMap {f : String → Option α} (h : ∀ key ∈ keys, (f key).isSome) :
    (keys.filterMap fun key => (f key).map (key, ·)).map Prod.fst = keys := by
  induction keys with
  | nil => rfl
  | cons key keys ih =>
    obtain ⟨hk, hks⟩ := List.forall_mem_cons.1 h
    obtain ⟨value, hv⟩ := Option.isSome_iff_exists.1 hk
    simp [hv, ih hks]

theorem keys_lastOfEach (pairs : List (String × α)) :
    (lastOfEach pairs).map Prod.fst = (pairs.map Prod.fst).eraseDups :=
  keys_filterMap fun _ hk => isSome_lastAt?.2 (List.mem_eraseDups.1 hk)

theorem length_lastOfEach_le (pairs : List (String × α)) :
    (lastOfEach pairs).length ≤ pairs.length := by
  have h := length_eraseDups_le (pairs.map Prod.fst)
  rwa [← keys_lastOfEach, List.length_map, List.length_map] at h

/-! ## Putting pairs one after the other -/

theorem putInto_of_not_mem (h : key ∉ pairs.map Prod.fst) :
    putInto key value pairs = pairs ++ [(key, value)] := by
  induction pairs with
  | nil => rfl
  | cons pair rest ih =>
    rw [List.map_cons, List.mem_cons, not_or] at h
    rw [putInto, if_neg (Ne.symm h.1), ih h.2]
    rfl

theorem putInto_filterMap {f : String → Option α} (h : ∀ key ∈ keys, (f key).isSome)
    (hn : keys.Nodup) :
    putInto key value (keys.filterMap fun k => (f k).map (k, ·)) =
      (if key ∈ keys then keys else keys ++ [key]).filterMap
        fun k => (if key = k then some value else f k).map (k, ·) := by
  have hkeep : ∀ ks : List String, key ∉ ks →
      (ks.filterMap fun k => (if key = k then some value else f k).map (k, ·)) =
        ks.filterMap fun k => (f k).map (k, ·) :=
    fun ks hks => List.filterMap_congr fun k hk => by rw [if_neg (ne_of_mem_of_not_mem hk hks).symm]
  by_cases hkey : key ∈ keys
  · rw [if_pos hkey]
    induction keys with
    | nil => cases hkey
    | cons k ks ih =>
      obtain ⟨hk, hks⟩ := List.forall_mem_cons.1 h
      obtain ⟨v, hv⟩ := Option.isSome_iff_exists.1 hk
      obtain ⟨hnk, hnks⟩ := List.nodup_cons.1 hn
      by_cases he : key = k
      · subst he
        simp [hv, putInto, hkeep ks hnk]
      · have hmem : key ∈ ks := (List.mem_cons.1 hkey).resolve_left he
        simp [hv, putInto, he, Ne.symm he, ih hks hnks hmem]
  · rw [if_neg hkey, putInto_of_not_mem (by rwa [keys_filterMap h]), List.filterMap_append,
      hkeep keys hkey]
    simp

theorem pairs_ofList_concat (pairs : List (String × α)) (pair : String × α) :
    (ofList (pairs ++ [pair])).pairs = putInto pair.1 pair.2 (ofList pairs).pairs := by
  rw [ofList, List.foldl_append]
  rfl

theorem pairs_ofList (pairs : List (String × α)) : (ofList pairs).pairs = lastOfEach pairs := by
  induction pairs using List.reverseRecOn with
  | nil => rfl
  | append_singleton pairs pair ih =>
    have hlast :
        ∀ k, lastAt? (pairs ++ [pair]) k = if pair.1 = k then some pair.2 else lastAt? pairs k := by
      intro k
      rw [lastAt?_append, lastAt?_singleton]
      split <;> rfl
    rw [pairs_ofList_concat, ih, lastOfEach,
      putInto_filterMap (fun _ hk => isSome_lastAt?.2 (List.mem_eraseDups.1 hk))
      (nodup_eraseDups _), lastOfEach, List.map_append, List.map_singleton, eraseDups_concat]
    simp only [hlast, List.mem_eraseDups]

theorem lastOfEach_eq_self_iff : lastOfEach pairs = pairs ↔ (pairs.map Prod.fst).Nodup := by
  constructor
  · intro h
    rw [← h, keys_lastOfEach]
    exact nodup_eraseDups _
  · intro h
    induction pairs using List.reverseRecOn with
    | nil => rfl
    | append_singleton pairs pair ih =>
      rw [List.map_append, List.nodup_append] at h
      have hnew : pair.1 ∉ pairs.map Prod.fst := fun hm => h.2.2 _ hm _ (by simp) rfl
      rw [← pairs_ofList, pairs_ofList_concat, pairs_ofList, ih h.1, putInto_of_not_mem hnew]

/-- Nothing gets lost or moved just where no key comes twice in one entry. -/
theorem flatMap_lastOfEach_eq_flatten_iff {entries : List (List (String × α))} :
    entries.flatMap lastOfEach = entries.flatten ↔
      ∀ pairs ∈ entries, (pairs.map Prod.fst).Nodup := by
  have hlength : ∀ entries : List (List (String × α)),
      (entries.flatMap lastOfEach).length ≤ entries.flatten.length := by
    intro entries
    induction entries with
    | nil => simp
    | cons pairs rest ih =>
      have h := length_lastOfEach_le pairs
      simp only [List.flatMap_cons, List.flatten_cons, List.length_append]
      omega
  induction entries with
  | nil => simp
  | cons pairs rest ih =>
    rw [List.flatMap_cons, List.flatten_cons, List.forall_mem_cons, ← lastOfEach_eq_self_iff]
    refine Iff.trans ?_ (and_congr_right fun _ => ih)
    constructor
    · intro h
      have hl := congrArg List.length h
      have hp := length_lastOfEach_le pairs
      have hr := hlength rest
      rw [List.length_append, List.length_append] at hl
      exact List.append_inj h (by omega)
    · rintro ⟨hp, hr⟩
      rw [hp, hr]

/-- What is kept does not depend on the values. -/
theorem lastOfEach_map (f : α → β) (pairs : List (String × α)) :
    lastOfEach (pairs.map fun pair => (pair.1, f pair.2)) = (lastOfEach pairs).map fun pair =>
      (pair.1, f pair.2) := by
  have hlast :
      ∀ k, lastAt? (pairs.map fun pair => (pair.1, f pair.2)) k = (lastAt? pairs k).map f := by
    intro k
    simp only [lastAt?, List.filter_map, List.getLast?_map, Option.map_map]
    rfl
  rw [lastOfEach, lastOfEach, List.map_filterMap, List.map_map]
  refine List.filterMap_congr fun k _ => ?_
  rw [hlast]
  cases lastAt? pairs k <;> rfl

end SlogHelpers.Entry
