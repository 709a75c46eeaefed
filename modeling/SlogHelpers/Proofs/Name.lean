import Mathlib.Data.List.Basic
import SlogHelpers.Name
import SlogHelpers.Proofs.Text.Upper

/-!
Go names by what they are made from. A name is made part by part, parts end at underscores, and a
part that has become a name stays as it is, since an upper-case form begins with a character that
upper-casing leaves alone.
-/
namespace SlogHelpers.Name

variable {atStart : Bool} {c : Char} {cs : List Char}

theorem camelChars_cons (hc : c ≠ '_') (rest : List Char) :
    camelChars atStart (c :: rest) =
      (if atStart then Text.upperFull c else [c]) ++ camelChars false rest := by
  rw [camelChars]
  exact hc

theorem camelChars_append (atStart : Bool) (front rest : List Char) :
    camelChars atStart (front ++ '_' :: rest) =
      camelChars atStart front ++ camelChars true rest := by
  induction front generalizing atStart with
  | nil => rfl
  | cons c front ih =>
    by_cases hc : c = '_'
    · subst hc
      exact ih true
    · rw [List.cons_append, camelChars_cons hc, camelChars_cons hc, ih, List.append_assoc]

theorem not_mem_camelChars (atStart : Bool) (cs : List Char) : '_' ∉ camelChars atStart cs := by
  induction cs generalizing atStart with
  | nil => exact List.not_mem_nil
  | cons c cs ih =>
    by_cases hc : c = '_'
    · subst hc
      exact ih true
    · rw [camelChars_cons hc, List.mem_append, not_or]
      refine ⟨?_, ih false⟩
      cases atStart with
      | true => exact Text.not_mem_upperFull hc
      | false => simpa using Ne.symm hc

/-- Behind its first character a name without underscores stays as it is. -/
theorem camelChars_false_of_not_mem (h : '_' ∉ cs) : camelChars false cs = cs := by
  induction cs with
  | nil => rfl
  | cons c cs ih =>
    obtain ⟨hc, hcs⟩ := not_or.1 (mt List.mem_cons.2 h)
    rw [camelChars_cons (Ne.symm hc), ih hcs]
    rfl

/-- A name begins with the upper-case form of a character. -/
theorem upperFull_of_head?_camelChars (h : (camelChars true cs).head? = some c) :
    Text.upperFull c = [c] := by
  induction cs with
  | nil => cases h
  | cons d cs ih =>
    by_cases hd : d = '_'
    · subst hd
      exact ih h
    · rw [camelChars_cons hd, if_pos rfl, List.head?_append_of_ne_nil _ (Text.upperFull_ne_nil d)]
        at h
      exact Text.upperFull_of_head? h

theorem camelChars_camelChars (cs : List Char) :
    camelChars true (camelChars true cs) = camelChars true cs := by
  have hsolid := not_mem_camelChars true cs
  have hhead : ∀ c ∈ (camelChars true cs).head?, Text.upperFull c = [c] :=
    fun c => upperFull_of_head?_camelChars
  cases hcs : camelChars true cs with
  | nil => rfl
  | cons c rest =>
    rw [hcs] at hsolid hhead
    obtain ⟨hc, hrest⟩ := not_or.1 (mt List.mem_cons.2 hsolid)
    rw [camelChars_cons (Ne.symm hc), if_pos rfl, hhead c rfl, camelChars_false_of_not_mem hrest]
    rfl

/-- Names joined by an underscore make the Go name of the one followed by that of the other, and
making the Go name of a Go name changes nothing, however many characters the first one turns
into. -/
theorem camelCase_joined_and_repeated :
    (∀ a b : String, camelCase (a ++ "_" ++ b) = camelCase a ++ camelCase b) ∧
      ∀ name : String, camelCase (camelCase name) = camelCase name := by
  constructor
  · intro a b
    have hjoined : (a ++ "_" ++ b).toList = a.toList ++ '_' :: b.toList := by simp
    rw [camelCase, hjoined, camelChars_append, String.ofList_append]
    rfl
  · intro name
    rw [camelCase, camelCase, String.toList_ofList, camelChars_camelChars]

example : camelCase "_ŉ__ǆ_" = "ʼNǄ" := by decide +kernel

/-! ## Names apart from words in lower case -/

/-- No lower-case letter of ASCII comes first, and no underscore anywhere. -/
structure IsCamelCase (name : String) : Prop where
  head : ∀ c ∈ name.toList.head?, c.isLower = false
  solid : '_' ∉ name.toList

theorem isCamelCase_camelCase (name : String) : IsCamelCase (camelCase name) := by
  rw [camelCase]
  constructor
  · rw [String.toList_ofList]
    intro c hc
    exact Bool.eq_false_iff.2 fun hl =>
      Text.upperFull_ne_of_isLower hl (upperFull_of_head?_camelChars hc)
  · rw [String.toList_ofList]
    exact not_mem_camelChars true name.toList

theorem isCamelCase_levelConstant (name : String) : IsCamelCase (levelConstant name) := by
  have htext :
      (levelConstant name).toList = ['L', 'e', 'v', 'e', 'l'] ++ (camelCase name).toList := by
    simp [levelConstant]
  constructor
  · rw [htext]
    rintro c ⟨⟩
    rfl
  · rw [htext, List.mem_append, not_or]
    exact ⟨by decide, (isCamelCase_camelCase name).solid⟩

def areLower (words : List String) : Bool :=
  words.all fun word => word.toList.head?.any Char.isLower

theorem not_mem_of_areLower {name : String} {words : List String} (h : IsCamelCase name)
    (hw : areLower words = true) : name ∉ words := by
  intro hm
  obtain ⟨c, hc, hl⟩ := (Option.any_eq_true _ _).1 (List.all_eq_true.1 hw name hm)
  rw [h.head c hc] at hl
  cases hl

end SlogHelpers.Name
