/-!
Readers take something off the front of a text and give the rest. That the rest is shorter is what
they end by; these facts carry it from one reader to the one around it.
-/
namespace SlogHelpers.Text

variable {α : Type}

theorem tail_lt (rest : List α) : rest.length < rest.length + 1 := Nat.lt_succ_self _

theorem tail_le (rest : List α) : rest.length ≤ rest.length + 1 := Nat.le_succ _

theorem drop_tail_lt (n : Nat) (rest : List α) : (rest.drop n).length < rest.length + 1 := by
  rw [List.length_drop]
  exact Nat.lt_succ_of_le (Nat.sub_le _ _)

theorem le_of_lt_tail {after rest : List α} (h : after.length < rest.length) :
    after.length ≤ rest.length + 1 :=
  Nat.le_succ_of_le (Nat.le_of_lt h)

theorem le_of_le_tail {after rest : List α} (h : after.length ≤ rest.length) :
    after.length ≤ rest.length + 1 :=
  Nat.le_succ_of_le h

theorem tail_tail_le (rest : List α) : rest.length ≤ rest.length + 1 + 1 :=
  Nat.le_succ_of_le (Nat.le_succ _)

theorem rest_lt_of_le {s t rest : List α} (h : t.length ≤ s.length) (hr : rest.length < t.length) :
    rest.length < s.length :=
  Nat.lt_of_lt_of_le hr h

theorem drop_takeWhile_lt {p : α → Bool} {s : List α} (h : 0 < (s.takeWhile p).length) :
    (s.drop (s.takeWhile p).length).length < s.length := by
  have := (List.takeWhile_sublist (l := s) p).length_le
  rw [List.length_drop]
  omega

end SlogHelpers.Text
