import Mathlib.Data.List.Chain
import SlogHelpers.Proofs.Source.SectionReading

/-!
Lines without stray white space, and blocks of such lines.
-/
namespace SlogHelpers.Source

/-! ## Lines -/

/-- White space in front of the line is all tabs, and there is none at its end. -/
structure Tidy (line : List Char) : Prop where
  unbroken : '\n' ∉ line
  indentation : ∀ c ∈ line.takeWhile Text.isBlank, c = '\t'
  last : ∀ c ∈ line.getLast?, Text.isBlank c = false

/-- The front of a line: some character is not white space, and none but tabs are before it. -/
structure Begun (cs : List Char) : Prop where
  unbroken : '\n' ∉ cs
  indentation : ∀ c ∈ cs.takeWhile Text.isBlank, c = '\t'
  visible : ∃ c ∈ cs, Text.isBlank c = false

theorem begun_iff {cs : List Char} :
    Begun cs ↔ '\n' ∉ cs ∧ (cs.takeWhile Text.isBlank).all (· == '\t') ∧
      cs.any (!Text.isBlank ·) := by
  simp only [List.all_eq_true, List.any_eq_true, beq_iff_eq, Bool.not_eq_true']
  exact ⟨fun h => ⟨h.unbroken, h.indentation, h.visible⟩, fun h => ⟨h.1, h.2.1, h.2.2⟩⟩

instance (cs : List Char) : Decidable (Begun cs) := decidable_of_iff _ begun_iff.symm

structure Finished (cs : List Char) : Prop where
  unbroken : '\n' ∉ cs
  visible : ∃ c ∈ cs.getLast?, Text.isBlank c = false

theorem finished_iff {cs : List Char} : Finished cs ↔
    '\n' ∉ cs ∧ cs.getLast?.any (!Text.isBlank ·) := by
  simp only [Option.any_eq_true, Bool.not_eq_true']
  exact ⟨fun h => ⟨h.unbroken, h.visible⟩, fun h => ⟨h.1, h.2⟩⟩

instance (cs : List Char) : Decidable (Finished cs) := decidable_of_iff _ finished_iff.symm

theorem takeWhile_append_of_mem {p : Char → Bool} {cs : List Char} {c : Char} (hm : c ∈ cs)
    (hc : p c = false) (more : List Char) : (cs ++ more).takeWhile p = cs.takeWhile p := by
  obtain ⟨before, behind, rfl⟩ := List.append_of_mem hm
  rw [List.append_assoc, List.cons_append, Lists.takeWhile_append_cons_of_neg hc,
    Lists.takeWhile_append_cons_of_neg hc]

variable {s t : String}

theorem unbroken_append (hs : '\n' ∉ s.toList) (ht : '\n' ∉ t.toList) : '\n' ∉ (s ++ t).toList := by
  rw [String.toList_append, List.mem_append, not_or]
  exact ⟨hs, ht⟩

theorem Begun.append (h : Begun s.toList) (ht : '\n' ∉ t.toList) : Begun (s ++ t).toList := by
  obtain ⟨c, hm, hc⟩ := h.visible
  refine ⟨unbroken_append h.unbroken ht, ?_, c, ?_, hc⟩
  · rw [String.toList_append, takeWhile_append_of_mem hm hc]
    exact h.indentation
  · rw [String.toList_append]
    exact List.mem_append_left _ hm

structure Filled (line : String) : Prop where
  begun : Begun line.toList
  finished : Finished line.toList

theorem Begun.filled (hs : Begun s.toList) (ht : Finished t.toList) : Filled (s ++ t) := by
  obtain ⟨c, hm, hc⟩ := ht.visible
  refine ⟨hs.append ht.unbroken, unbroken_append hs.unbroken ht.unbroken, c, ?_, hc⟩
  rw [String.toList_append, List.getLast?_append, Option.mem_def.1 hm]
  rfl

theorem Filled.indented (h : Filled s) : Filled ("\t" ++ s) := by
  obtain ⟨c, hm, hc⟩ := h.begun.visible
  obtain ⟨d, hl, hd⟩ := h.finished.visible
  have hlist : ("\t" ++ s).toList = '\t' :: s.toList := by
    rw [String.toList_append, String.toList_ofList]
    rfl
  have hunbroken : '\n' ∉ '\t' :: s.toList := by
    rw [List.mem_cons, not_or]
    exact ⟨by decide, h.begun.unbroken⟩
  have hbegun : Begun ('\t' :: s.toList) := by
    refine ⟨hunbroken, ?_, c, List.mem_cons_of_mem _ hm, hc⟩
    rw [List.takeWhile_cons_of_pos (by decide), List.forall_mem_cons]
    exact ⟨rfl, h.begun.indentation⟩
  have hfinished : Finished ('\t' :: s.toList) := by
    refine ⟨hunbroken, d, ?_, hd⟩
    rw [List.getLast?_cons_of_ne_nil (List.ne_nil_of_mem hm)]
    exact hl
  exact ⟨hlist ▸ hbegun, hlist ▸ hfinished⟩

theorem begun_ofList {cs : List Char} (h : Begun cs) : Begun (String.ofList cs).toList := by
  rwa [String.toList_ofList]

theorem finished_ofList {cs : List Char} (h : Finished cs) :
    Finished (String.ofList cs).toList := by
  rwa [String.toList_ofList]

theorem unbroken_ofList {cs : List Char} (h : '\n' ∉ cs) : '\n' ∉ (String.ofList cs).toList := by
  rwa [String.toList_ofList]

theorem filled_ofList {cs : List Char} (h : Begun cs ∧ Finished cs) : Filled (String.ofList cs) :=
  ⟨begun_ofList h.1, finished_ofList h.2⟩

theorem Filled.tidy (h : Filled s) : Tidy s.toList := by
  refine ⟨h.begun.unbroken, h.begun.indentation, fun c hc => ?_⟩
  obtain ⟨d, hd, hblank⟩ := h.finished.visible
  obtain rfl := Option.some.inj (hd.symm.trans hc)
  exact hblank

theorem Filled.ne_empty (h : Filled s) : s ≠ "" := by
  rintro rfl
  obtain ⟨c, hc, -⟩ := h.finished.visible
  cases hc

/-! ## Names and literals at the end of a line -/

/-- The code points of white space. -/
def blankCodes : List Nat := [
  9, 10, 11, 12, 13, 0x20, 0x85, 0xA0, 0x1680, 0x2000, 0x2001, 0x2002, 0x2003, 0x2004, 0x2005,
  0x2006, 0x2007, 0x2008, 0x2009, 0x200A, 0x2028, 0x2029, 0x202F, 0x205F, 0x3000]

theorem mem_blankCodes {c : Char} (h : Text.isBlank c = true) : c.toNat ∈ blankCodes := by
  simp only [Text.isBlank, Bool.or_eq_true, Bool.and_eq_true, decide_eq_true_eq, beq_iff_eq] at h
  rcases h with (((((((((h | h) | h) | h) | h) | h) | h) | h) | h) | h) | h <;>
  · simp only [blankCodes, List.mem_cons, List.not_mem_nil, or_false]
    omega

theorem isBlank_of_isNameChar {c : Char} (h : Text.isNameChar c = true) :
    Text.isBlank c = false := by
  have hall : ∀ n ∈ blankCodes, n ≠ '_'.toNat ∧ Text.inRanges n Text.letterRanges = false ∧
      Text.inRanges n Text.digitRanges = false := by decide +kernel
  rw [← Bool.not_eq_true]
  intro hblank
  obtain ⟨hu, hl, hd⟩ := hall _ (mem_blankCodes hblank)
  have hc : (c == '_') = false := beq_false_of_ne fun he => hu (congrArg Char.toNat he)
  rw [Text.isNameChar, Text.isLetter, Text.isDecimalDigit, hl, hd, hc] at h
  cases h

theorem finished_identifier (h : isIdentifier s = true) : Finished s.toList := by
  refine ⟨newline_not_mem_identifier h, ?_⟩
  rw [isIdentifier] at h
  cases hs : s.toList with
  | nil =>
    rw [hs] at h
    cases h
  | cons c cs =>
    rw [hs] at h
    exact ⟨_, List.getLast?_eq_some_getLast (List.cons_ne_nil c cs),
      isBlank_of_isNameChar (isNameChar_of_mem h (List.getLast_mem _))⟩

theorem finished_literal (s : String) : Finished (literal s).toList := by
  refine ⟨newline_not_mem_literal, '"', ?_, by decide⟩
  rw [literal, String.toList_ofList]
  exact List.getLast?_concat

/-! ## Blocks -/

/-- Lines that stand together, the first of which begins so. -/
structure Block (opening : String) (lines : List String) : Prop where
  opening : ∃ line ∈ lines.head?, opening.toList <+: line.toList
  tidy : ∀ line ∈ lines, Tidy line.toList
  first : ∀ line ∈ lines.head?, line ≠ ""
  last : ∃ line ∈ lines.getLast?, Filled line
  /-- No empty line follows an empty one. -/
  single : lines.IsChain fun line next => line = "" → next ≠ ""

theorem block_of_filled {opening line : String} {more : List String}
    (ho : opening.toList <+: line.toList)
    (h : ∀ l ∈ line :: more, Filled l) : Block opening (line :: more) where
  opening := ⟨line, rfl, ho⟩
  tidy l hl := (h l hl).tidy
  first l hl := (h l (List.mem_of_head? hl)).ne_empty
  last := ⟨_, List.getLast?_eq_some_getLast (List.cons_ne_nil line more), h _ (List.getLast_mem _)⟩
  single := by
    refine List.isChain_iff_forall_rel_of_append_cons_cons.2 fun a b before behind hs ha => ?_
    exact absurd ha (h a (hs ▸ by simp)).ne_empty

variable {opening other : String} {lines more : List String}

theorem Block.lines_ne_nil (h : Block opening lines) : lines ≠ [] := by
  rintro rfl
  obtain ⟨line, hl, -⟩ := h.last
  cases hl

/-- A further block behind an empty line. -/
theorem Block.spaced (h : Block opening lines) (hm : Block other more) :
    Block opening (lines ++ "" :: more) where
  opening := by
    rw [List.head?_append_of_ne_nil _ h.lines_ne_nil]
    exact h.opening
  tidy line hl := by
    obtain hl | hl := List.mem_append.1 hl
    · exact h.tidy line hl
    · obtain rfl | hl := List.mem_cons.1 hl
      · exact ⟨nofun, nofun, nofun⟩
      · exact hm.tidy line hl
  first line hl := by
    rw [List.head?_append_of_ne_nil _ h.lines_ne_nil] at hl
    exact h.first line hl
  last := by
    rw [List.getLast?_append_of_ne_nil _ (List.cons_ne_nil _ _),
      List.getLast?_cons_of_ne_nil hm.lines_ne_nil]
    exact hm.last
  single := by
    refine List.isChain_append.2
      ⟨h.single, List.isChain_cons.2 ⟨fun next hn _ => hm.first next hn, hm.single⟩, ?_⟩
    intro line hl _ _ he
    obtain ⟨last, hlast, hf⟩ := h.last
    obtain rfl := Option.some.inj (hlast.symm.trans hl)
    exact absurd he hf.ne_empty

/-- A line for each entry. -/
theorem block_map {α : Type} {f : α → String} {xs : List α} (hne : xs ≠ [])
    (h : ∀ x ∈ xs, opening.toList <+: (f x).toList ∧ Filled (f x)) : Block opening (xs.map f) := by
  obtain ⟨x, xs, rfl⟩ := List.exists_cons_of_ne_nil hne
  refine block_of_filled (h x List.mem_cons_self).1 fun line hl => ?_
  obtain ⟨y, hy, rfl⟩ := List.mem_map.1 (List.map_cons ▸ hl)
  exact (h y hy).2

/-- Fixed lines around two for each entry of a table. -/
theorem block_table {line : String} {first last : List String} {cases : List (String × String)}
    {f g : String × String → String} (hfirst : ∀ l ∈ line :: first, Filled l)
    (hlast : ∀ l ∈ last, Filled l) (h : ∀ entry ∈ cases, Filled (f entry) ∧ Filled (g entry)) :
    Block line (line :: first ++ cases.flatMap (fun entry => [f entry, g entry]) ++ last) := by
  rw [List.append_assoc, List.cons_append]
  refine block_of_filled (List.prefix_refl _) fun l hl => ?_
  rw [← List.cons_append, ← List.append_assoc, List.mem_append, List.mem_append] at hl
  obtain (hl | hl) | hl := hl
  · exact hfirst l hl
  · obtain ⟨entry, he, hl⟩ := List.mem_flatMap.1 hl
    obtain rfl | rfl : l = f entry ∨ l = g entry := by simpa using hl
    · exact (h entry he).1
    · exact (h entry he).2
  · exact hlast l hl

end SlogHelpers.Source
