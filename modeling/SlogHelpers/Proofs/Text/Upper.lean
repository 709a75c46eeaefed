import Mathlib.Algebra.Group.Nat.Defs
import SlogHelpers.Text.Upper

/-!
The one-to-one upper-case mapping does nothing to what it has mapped, and the full one nothing to
the first character of what it has mapped. They change finitely many code points; that none of them
is one that another is changed to is a check of two sets of numbers, each written as the bits of one
number.
-/
namespace SlogHelpers.Text

def UpperRun.codes (run : UpperRun) : List Nat :=
  (List.range ((run.last - run.first) / run.stride + 1)).map (run.first + run.stride * ·)

def UpperRun.move (run : UpperRun) (n : Nat) : Nat := (n + run.shift).toNat

/-- The Greek vowels with iota below that have a title-case form. -/
def iotaVowelRuns : List UpperRun := [
  ⟨0x1F80, 0x1F87, 1, 8⟩, ⟨0x1F90, 0x1F97, 1, 8⟩, ⟨0x1FA0, 0x1FA7, 1, 8⟩, ⟨0x1FB3, 0x1FB3, 1, 9⟩,
  ⟨0x1FC3, 0x1FC3, 1, 9⟩, ⟨0x1FF3, 0x1FF3, 1, 9⟩]

/-- The runs that the one-to-one mapping moves. -/
def movedRuns : List UpperRun := upperRuns ++ iotaVowelRuns

/-- A set of numbers as the bits of one. -/
def bitSet : List Nat → Nat
  | [] => 0
  | n :: rest => bitSet rest ||| 2 ^ n

theorem testBit_bitSet {n : Nat} {ns : List Nat} (h : n ∈ ns) : (bitSet ns).testBit n = true := by
  induction ns with
  | nil => cases h
  | cons m rest ih =>
    rw [bitSet, Nat.testBit_or, Bool.or_eq_true]
    obtain rfl | h := List.mem_cons.1 h
    · exact .inr Nat.testBit_two_pow_self
    · exact .inl (ih h)

theorem disjoint_of_bitSet_and {ns ms : List Nat} (h : bitSet ns &&& bitSet ms = 0) {n : Nat}
    (hn : n ∈ ns) : n ∉ ms := by
  intro hm
  have hbit : (bitSet ns &&& bitSet ms).testBit n = true := by
    rw [Nat.testBit_and, testBit_bitSet hn, testBit_bitSet hm, Bool.and_self]
  rw [h, Nat.zero_testBit] at hbit
  cases hbit

theorem UpperRun.mem_codes {run : UpperRun} {n : Nat} (h : run.holds n = true) : n ∈ run.codes := by
  simp only [holds, Bool.and_eq_true, decide_eq_true_eq, beq_iff_eq] at h
  obtain ⟨⟨hfirst, hlast⟩, hmod⟩ := h
  have hdiv : run.stride * ((n - run.first) / run.stride) = n - run.first :=
    Nat.mul_div_cancel' (Nat.dvd_of_mod_eq_zero hmod)
  have hle : (n - run.first) / run.stride ≤ (run.last - run.first) / run.stride :=
    Nat.div_le_div_right (by omega)
  refine List.mem_map.2 ⟨(n - run.first) / run.stride, List.mem_range.2 (by omega), ?_⟩
  rw [hdiv]
  omega

theorem moved_disjoint :
    bitSet (movedRuns.flatMap UpperRun.codes) &&&
      bitSet (movedRuns.flatMap fun run => run.codes.map run.move) = 0 := by
  decide +kernel

theorem moved_valid :
    ((movedRuns.flatMap fun run => run.codes.map run.move).all fun n => decide n.isValidChar) =
      true := by
  decide +kernel

/-- A run moves each of its code points to one of these. -/
theorem move_mem_moved {runs : List UpperRun} {run : UpperRun} {n : Nat} (hrun : run ∈ runs)
    (hn : run.holds n = true) : run.move n ∈ runs.flatMap fun run => run.codes.map run.move :=
  List.mem_flatMap.2 ⟨run, hrun, List.mem_map_of_mem (UpperRun.mem_codes hn)⟩

theorem toNat_ofNat_of_valid {codes : List Nat}
    (h : (codes.all fun n => decide n.isValidChar) = true) {n : Nat}
    (hn : n ∈ codes) : (Char.ofNat n).toNat = n := by
  have hvalid : n.isValidChar := of_decide_eq_true (List.all_eq_true.1 h n hn)
  rw [Char.ofNat, dif_pos hvalid]
  rfl

/-- What a run moves to is no code point of any run. -/
theorem not_holds_move {run other : UpperRun} {n : Nat} (hrun : run ∈ movedRuns)
    (hn : run.holds n = true) (hother : other ∈ movedRuns) : other.holds (run.move n) = false := by
  refine Bool.eq_false_iff.2 fun h => ?_
  have hcodes : run.move n ∈ movedRuns.flatMap UpperRun.codes :=
    List.mem_flatMap.2 ⟨other, hother, UpperRun.mem_codes h⟩
  exact disjoint_of_bitSet_and moved_disjoint hcodes (move_mem_moved hrun hn)

theorem two_le_length_of_expansion {n : Nat} {codes : List Nat}
    (h : upperExpansions.lookup n = some codes) :
    2 ≤ codes.length := by
  have hall : (upperExpansions.all fun entry => 2 ≤ entry.2.length) = true := by decide
  obtain ⟨before, after, hs, -⟩ := List.lookup_eq_some_iff.1 h
  have hm : (n, codes) ∈ upperExpansions := by
    rw [hs]
    exact List.mem_append_right _ List.mem_cons_self
  exact of_decide_eq_true (List.all_eq_true.1 hall _ hm)

theorem exists_run_of_titleOfIotaVowel {n m : Nat} (h : titleOfIotaVowel n = some m) :
    ∃ run ∈ iotaVowelRuns, run.holds n = true ∧ m = run.move n := by
  have hholds (first last : Nat) (shift : Int) (hf : first ≤ n) (hl : n ≤ last) :
      (UpperRun.mk first last 1 shift).holds n = true := by
    simp [UpperRun.holds, hf, hl, Nat.mod_one]
  rw [titleOfIotaVowel] at h
  split at h
  · next hn =>
    obtain rfl := Option.some.inj h
    simp only [Bool.or_eq_true, Bool.and_eq_true, decide_eq_true_eq] at hn
    obtain (⟨hf, hl⟩ | ⟨hf, hl⟩) | ⟨hf, hl⟩ := hn
    · exact ⟨⟨0x1F80, 0x1F87, 1, 8⟩, by simp [iotaVowelRuns], hholds _ _ _ hf hl, rfl⟩
    · exact ⟨⟨0x1F90, 0x1F97, 1, 8⟩, by simp [iotaVowelRuns], hholds _ _ _ hf hl, rfl⟩
    · exact ⟨⟨0x1FA0, 0x1FA7, 1, 8⟩, by simp [iotaVowelRuns], hholds _ _ _ hf hl, rfl⟩
  · split at h
    · next hn =>
      obtain rfl := Option.some.inj h
      simp only [Bool.or_eq_true, beq_iff_eq] at hn
      obtain (rfl | rfl) | rfl := hn
      · exact ⟨⟨0x1FB3, 0x1FB3, 1, 9⟩, by simp [iotaVowelRuns], rfl, rfl⟩
      · exact ⟨⟨0x1FC3, 0x1FC3, 1, 9⟩, by simp [iotaVowelRuns], rfl, rfl⟩
      · exact ⟨⟨0x1FF3, 0x1FF3, 1, 9⟩, by simp [iotaVowelRuns], rfl, rfl⟩
    · cases h

/-- The one-to-one mapping leaves a character as it is or moves it with one of the runs. -/
theorem upperSimple_cases (c : Char) :
    upperSimple c = c ∨
      ∃ run ∈ movedRuns, run.holds c.toNat = true ∧
        upperSimple c = Char.ofNat (run.move c.toNat) := by
  cases hl : upperExpansions.lookup c.toNat with
  | none =>
    have hs : upperSimple c = Char.ofNat (shiftUp c.toNat) := by simp [upperSimple, upperFull, hl]
    rw [hs, shiftUp]
    cases hf : upperRuns.find? (·.holds c.toNat) with
    | none => exact .inl (Char.ofNat_toNat c)
    | some run =>
      have hh : run.holds c.toNat = true := by simpa using List.find?_some hf
      exact .inr ⟨run, List.mem_append_left _ (List.mem_of_find?_eq_some hf), hh, rfl⟩
  | some codes =>
    have hs : upperSimple c = ((titleOfIotaVowel c.toNat).map Char.ofNat).getD c := by
      have hlen := two_le_length_of_expansion hl
      match codes with
      | a :: b :: rest =>
        simp only [upperSimple, upperFull, hl, List.map_cons]
        cases titleOfIotaVowel c.toNat <;> rfl
    rw [hs]
    cases ht : titleOfIotaVowel c.toNat with
    | none => exact .inl rfl
    | some m =>
      obtain ⟨run, hrun, hh, rfl⟩ := exists_run_of_titleOfIotaVowel ht
      exact .inr ⟨run, List.mem_append_right _ hrun, hh, rfl⟩

@[simp] theorem upperSimple_upperSimple (c : Char) :
    upperSimple (upperSimple c) = upperSimple c := by
  obtain h | ⟨run, hrun, hh, h⟩ := upperSimple_cases c
  · rw [h, h]
  · obtain h' | ⟨other, hother, hheld, -⟩ := upperSimple_cases (upperSimple c)
    · exact h'
    · have hmove := toNat_ofNat_of_valid moved_valid (move_mem_moved hrun hh)
      rw [h, hmove, not_holds_move hrun hh hother] at hheld
      cases hheld

@[simp] theorem upperText_upperText (s : String) : upperText (upperText s) = upperText s := by
  rw [upperText, upperText, String.map_map]
  congr 1
  funext c
  exact upperSimple_upperSimple c

/-! ## The full mapping -/

def changedCodes : List Nat := upperRuns.flatMap UpperRun.codes ++ upperExpansions.map Prod.fst

/-- The code points that it puts first where it changes one. -/
def firstCodes : List Nat :=
  upperRuns.flatMap (fun run => run.codes.map run.move) ++ upperExpansions.filterMap (·.2.head?)

theorem changed_disjoint_first : bitSet changedCodes &&& bitSet firstCodes = 0 := by
  decide +kernel

theorem first_valid : (firstCodes.all fun n => decide n.isValidChar) = true := by
  decide +kernel

theorem upperFull_of_not_mem_changedCodes {c : Char} (h : c.toNat ∉ changedCodes) :
    upperFull c = [c] := by
  obtain ⟨hruns, hexpansions⟩ := not_or.1 (mt List.mem_append.2 h)
  have hlookup : upperExpansions.lookup c.toNat = none := by
    refine List.lookup_eq_none_iff.2 fun entry he => ?_
    rw [bne_iff_ne]
    intro hc
    exact hexpansions (List.mem_map.2 ⟨entry, he, hc.symm⟩)
  have hfind : upperRuns.find? (·.holds c.toNat) = none := by
    refine List.find?_eq_none.2 fun run hrun hh => hruns ?_
    exact List.mem_flatMap.2 ⟨run, hrun, UpperRun.mem_codes hh⟩
  rw [upperFull, hlookup, shiftUp, hfind, Char.ofNat_toNat]

/-- The full mapping leaves a character as it is, moves it with a run, or expands it. -/
theorem upperFull_cases (c : Char) : upperFull c = [c] ∨
    (∃ run ∈ upperRuns, run.holds c.toNat = true ∧ upperFull c = [Char.ofNat (run.move c.toNat)]) ∨
    ∃ entry ∈ upperExpansions, upperFull c = entry.2.map Char.ofNat := by
  cases hl : upperExpansions.lookup c.toNat with
  | none =>
    have hs : upperFull c = [Char.ofNat (shiftUp c.toNat)] := by rw [upperFull, hl]
    rw [hs, shiftUp]
    cases hf : upperRuns.find? (·.holds c.toNat) with
    | none => exact .inl (congrArg (fun d => [d]) (Char.ofNat_toNat c))
    | some run =>
      have hh : run.holds c.toNat = true := by simpa using List.find?_some hf
      exact .inr (.inl ⟨run, List.mem_of_find?_eq_some hf, hh, rfl⟩)
  | some codes =>
    have hs : upperFull c = codes.map Char.ofNat := by rw [upperFull, hl]
    obtain ⟨before, after, hs', -⟩ := List.lookup_eq_some_iff.1 hl
    have hm : (c.toNat, codes) ∈ upperExpansions := by
      rw [hs']
      exact List.mem_append_right _ List.mem_cons_self
    exact .inr (.inr ⟨(c.toNat, codes), hm, hs⟩)

/-- What an upper-case form begins with is its own upper-case form. -/
theorem upperFull_of_head? {c d : Char} (h : (upperFull c).head? = some d) : upperFull d = [d] := by
  have hfirst {n : Nat} (hn : n ∈ firstCodes) : upperFull (Char.ofNat n) = [Char.ofNat n] := by
    refine upperFull_of_not_mem_changedCodes fun hc => ?_
    rw [toNat_ofNat_of_valid first_valid hn] at hc
    exact disjoint_of_bitSet_and changed_disjoint_first hc hn
  obtain hs | ⟨run, hrun, hh, hs⟩ | ⟨entry, he, hs⟩ := upperFull_cases c
  · rw [hs] at h
    obtain rfl := Option.some.inj h
    exact hs
  · rw [hs] at h
    obtain rfl := Option.some.inj h
    exact hfirst (List.mem_append_left _ (move_mem_moved hrun hh))
  · rw [hs, List.head?_map] at h
    obtain ⟨n, hn, rfl⟩ := Option.map_eq_some_iff.1 h
    exact hfirst (List.mem_append_right _ (List.mem_filterMap.2 ⟨entry, he, hn⟩))

theorem upperFull_ne_nil (c : Char) : upperFull c ≠ [] := by
  have hall : (upperExpansions.all fun entry => entry.2 != []) = true := by decide
  obtain hs | ⟨run, -, -, hs⟩ | ⟨entry, he, hs⟩ := upperFull_cases c
  · simp [hs]
  · simp [hs]
  · have hne := List.all_eq_true.1 hall entry he
    simpa [hs] using hne

theorem moved_not_underscore : (upperRuns.all fun run => run.codes.all fun n =>
    Char.ofNat (run.move n) != '_') = true := by
  decide +kernel

theorem not_mem_upperFull {c : Char} (hc : c ≠ '_') : '_' ∉ upperFull c := by
  have hall :
      (upperExpansions.all fun entry => (entry.2.map Char.ofNat).all (· != '_')) = true := by
    decide +kernel
  intro h
  obtain hs | ⟨run, hrun, hh, hs⟩ | ⟨entry, he, hs⟩ := upperFull_cases c
  · rw [hs] at h
    exact hc (List.mem_singleton.1 h).symm
  · rw [hs, List.mem_singleton] at h
    have hn := List.all_eq_true.1
        (List.all_eq_true.1 moved_not_underscore run hrun) _ (UpperRun.mem_codes hh)
    simp [← h] at hn
  · rw [hs] at h
    have hn := List.all_eq_true.1 (List.all_eq_true.1 hall entry he) _ h
    simp at hn

theorem upperFull_ne_of_isLower {c : Char} (h : c.isLower = true) : upperFull c ≠ [c] := by
  have hall : ((List.range 26).all fun k =>
      upperFull (Char.ofNat (0x61 + k)) != [Char.ofNat (0x61 + k)]) = true := by
    decide +kernel
  have h : (decide (0x61 ≤ c.val) && decide (c.val ≤ 0x7A)) = true := h
  have hc : 0x61 ≤ c.toNat ∧ c.toNat ≤ 0x7A := by simpa [UInt32.le_iff_toNat_le] using h
  have hn := List.all_eq_true.1 hall (c.toNat - 0x61) (List.mem_range.2 (by omega))
  rw [Nat.add_sub_cancel' hc.1, Char.ofNat_toNat] at hn
  exact bne_iff_ne.1 hn

end SlogHelpers.Text
