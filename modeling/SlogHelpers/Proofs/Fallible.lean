import Mathlib.Data.List.Forall2

/-!
Steps that may fail, one after the other: when the whole succeeds, and with which fault it fails.
-/
namespace SlogHelpers.Fallible

variable {ε α β : Type} {first : Except ε α} {next : α → Except ε β}

theorem bind_eq_ok {result : β} :
    first >>= next = .ok result ↔ ∃ a, first = .ok a ∧ next a = .ok result := by
  cases first with
  | error fault => simp [Bind.bind, Except.bind]
  | ok a => simp [Bind.bind, Except.bind]

theorem bind_eq_error {fault : ε} :
    first >>= next = .error fault ↔
      first = .error fault ∨ ∃ a, first = .ok a ∧ next a = .error fault := by
  cases first with
  | error e => simp [Bind.bind, Except.bind]
  | ok a => simp [Bind.bind, Except.bind]

theorem mapM_append_eq_ok {f : α → Except ε β} {xs ys : List α} {results : List β} :
    (xs ++ ys).mapM f = .ok results ↔
      ∃ as, xs.mapM f = .ok as ∧ ∃ bs, ys.mapM f = .ok bs ∧ results = as ++ bs := by
  have hpure (as bs : List β) : (pure (as ++ bs) : Except ε (List β)) = .ok results ↔
      results = as ++ bs :=
    ⟨fun h => (Except.ok.inj h).symm, fun h => congrArg Except.ok h.symm⟩
  simp only [List.mapM_append, bind_eq_ok, hpure]

theorem map_eq_ok {f : α → β} {result : Except ε α} {b : β} :
    result.map f = .ok b ↔ ∃ a, result = .ok a ∧ f a = b := by
  cases result with
  | error fault => exact iff_of_false nofun nofun
  | ok a => simp [Except.map]

theorem map_eq_error {f : α → β} {result : Except ε α} {fault : ε} :
    result.map f = .error fault ↔ result = .error fault := by
  cases result <;> simp [Except.map]

theorem mapError_eq_ok {ε' : Type} {f : ε → ε'} {result : Except ε α} {a : α} :
    result.mapError f = .ok a ↔ result = .ok a := by
  constructor
  · intro h
    cases result with
    | error fault => cases h
    | ok a' =>
      cases h
      rfl
  · intro h
    rw [h]
    rfl

theorem mapM_map_eq_ok_map {γ : Type} {f : γ → β} {g : β → Except ε α} {k : γ → α} {xs : List γ}
    (h : ∀ x ∈ xs, g (f x) = .ok (k x)) : (xs.map f).mapM g = .ok (xs.map k) := by
  induction xs with
  | nil => rfl
  | cons x rest ih =>
    obtain ⟨hx, hrest⟩ := List.forall_mem_cons.1 h
    rw [List.map_cons, List.mapM_cons, hx, ih hrest]
    rfl

theorem mapM_map_eq_ok {f : α → β} {g : β → Except ε α} {xs : List α}
    (h : ∀ x ∈ xs, g (f x) = .ok x) :
    (xs.map f).mapM g = .ok xs := by
  rw [mapM_map_eq_ok_map h, List.map_id']

theorem ok_or_error (result : Except ε α) :
    (∃ fault, result = .error fault) ∨ ∃ a, result = .ok a := by
  cases result with
  | error fault => exact .inl ⟨fault, rfl⟩
  | ok a => exact .inr ⟨a, rfl⟩

theorem exists_of_isOk {result : Except ε α} (h : result.isOk = true) : ∃ a, result = .ok a := by
  cases result with
  | error fault => cases h
  | ok a => exact ⟨a, rfl⟩

/-! ## Faults -/

def fault? : Except ε α → Option ε
  | .ok _ => none
  | .error fault => some fault

theorem fault?_eq_some {result : Except ε α} {fault : ε} : fault? result = some fault ↔
    result = .error fault := by
  cases result <;> simp [fault?]

theorem fault?_eq_none {result : Except ε α} : fault? result = none ↔ ∃ a, result = .ok a := by
  cases result <;> simp [fault?]

/-- The fault is that of the first step, and else that of the rest, where it is the same for all
results. -/
theorem fault?_bind {rest : Option ε} (h : ∀ a, fault? (next a) = rest) :
    fault? (first >>= next) = (fault? first).or rest := by
  cases first with
  | error fault => rfl
  | ok a => exact h a

theorem fault?_mapM {f : α → Except ε β} {xs : List α} :
    fault? (xs.mapM f) = xs.findSome? fun x => fault? (f x) := by
  induction xs with
  | nil => rfl
  | cons x rest ih =>
    have hrest (y : β) : fault? (rest.mapM f >>= fun ys => pure (y :: ys)) = rest.findSome? fun x =>
        fault? (f x) := by
      have hpure (ys : List β) : fault? (pure (y :: ys) : Except ε (List β)) = none := rfl
      rw [fault?_bind hpure, ih, Option.or_none]
    rw [List.mapM_cons, fault?_bind hrest, List.findSome?_cons]
    cases fault? (f x) <;> rfl

/-- The results stand in the order of what they were made from. -/
theorem mapM_eq_ok {f : α → Except ε β} {xs : List α} {ys : List β} :
    xs.mapM f = .ok ys ↔ List.Forall₂ (fun x y => f x = .ok y) xs ys := by
  induction xs generalizing ys with
  | nil =>
    constructor
    · intro h
      cases h
      exact .nil
    · intro h
      cases h
      rfl
  | cons x rest ih =>
    rw [List.mapM_cons, bind_eq_ok, List.forall₂_cons_left_iff]
    simp only [bind_eq_ok, ih]
    constructor
    · rintro ⟨y, hy, ys, hys, h⟩
      exact ⟨y, ys, hy, hys, (Except.ok.inj h).symm⟩
    · rintro ⟨y, ys, hy, hys, rfl⟩
      exact ⟨y, hy, ys, hys, rfl⟩

/-! ## Steps that change a state -/

section States

variable {σ : Type} {first : ExceptT ε (StateM σ) α} {next : α → ExceptT ε (StateM σ) β} {s s' : σ}

theorem ran_cases (first : ExceptT ε (StateM σ) α) (s : σ) :
    (∃ fault s', first.run s = (.error fault, s')) ∨ ∃ a s', first.run s = (.ok a, s') := by
  cases h : first.run s with
  | mk result s' =>
    cases result with
    | error fault => exact .inl ⟨fault, s', rfl⟩
    | ok a => exact .inr ⟨a, s', rfl⟩

theorem run_bind_of_ok {a : α} (h : first.run s = (.ok a, s')) :
    (first >>= next).run s = (next a).run s' := by
  change first s = (.ok a, s') at h
  simp only [ExceptT.run, bind, ExceptT.bind, ExceptT.mk, StateT.bind, h]
  rfl

theorem run_bind_of_error {fault : ε} (h : first.run s = (.error fault, s')) :
    (first >>= next).run s = (.error fault, s') := by
  change first s = (.error fault, s') at h
  simp only [ExceptT.run, bind, ExceptT.bind, ExceptT.mk, StateT.bind, h]
  rfl

theorem run_bind_kept {τ : Type} {files : σ → τ} (hf : files (first.run s).2 = files s)
    (hn : ∀ a s', files ((next a).run s').2 = files s') :
    files ((first >>= next).run s).2 = files s := by
  obtain ⟨fault, s', h⟩ | ⟨a, s', h⟩ := ran_cases first s
  · rw [h] at hf
    rw [run_bind_of_error h]
    exact hf
  · rw [h] at hf
    rw [run_bind_of_ok h]
    exact (hn a s').trans hf

theorem run_bind_mapError_of_ok {ε' : Type} {f : ε' → ε} {result : Except ε' α} {a : α}
    (h : result = .ok a) :
    ((ExceptT.mk (pure (result.mapError f)) : ExceptT ε (StateM σ) α) >>= next).run s =
      (next a).run s := by
  rw [h]
  rfl

theorem run_bind_mapError_of_error {ε' : Type} {f : ε' → ε} {result : Except ε' α} {fault : ε'}
    (h : result = .error fault) :
    ((ExceptT.mk (pure (result.mapError f)) : ExceptT ε (StateM σ) α) >>= next).run s =
      (.error (f fault), s) := by
  rw [h]
  rfl

end States

end SlogHelpers.Fallible
