import SlogHelpers.Proofs.Config.Layering

/-!
Options laid over a configuration in place. Either every pair of the options is read and all of them
is added, or the configuration stays as it was; and so a run of such steps comes to what the steps
that succeed come to.
-/
namespace SlogHelpers
open Fallible

/-! ## Options whose pairs are read -/

namespace Options

structure Readable (options : Options) : Prop where
  levels : ∀ value ∈ options.levels, ∃ level, readLevel value = .ok level
  attributes : ∀ value ∈ options.attributes, ∃ pair, readAttribute value = .ok pair

/-- The fault of the first level that is not read, or else of the first such attribute. -/
def firstFault? (options : Options) : Option ConfigFault :=
  (options.levels.findSome? fun value => fault? (readLevel value)).or
    (options.attributes.findSome? fun value => fault? (readAttribute value))

variable {options : Options}

theorem firstFault?_eq_none : options.firstFault? = none ↔ options.Readable := by
  simp only [firstFault?, Option.or_eq_none_iff, List.findSome?_eq_none_iff, fault?_eq_none]
  exact ⟨fun h => ⟨h.1, h.2⟩, fun h => ⟨h.levels, h.attributes⟩⟩

instance : Decidable options.Readable := decidable_of_iff _ firstFault?_eq_none

end Options

namespace Config

variable {config next : Config} {options : Options} {fault : ConfigFault}

/-! ## One step -/

theorem fault?_layer (config : Config) (options : Options) :
    fault? (config.layer options) = options.firstFault? := by
  have hadded (levels : List (String × Severity)) (attributes : List (String × String)) :
      fault?
        (pure (config.extended options levels attributes) : Except ConfigFault Config) = none := rfl
  rw [Options.firstFault?, ← fault?_mapM, ← fault?_mapM]
  exact fault?_bind fun levels => (fault?_bind (hadded levels)).trans Option.or_none

theorem run_updateLogger (config : Config) (options : Options) :
    (updateLogger options).run config =
      ((), { config with logger := layeredLogger config.logger options }) := by
  obtain ⟨pkg, imports, levels, constants, attributes, logger, api, context⟩ := options
  obtain ⟨pkg', imports', levels', constants', attributes', settings⟩ := config
  rcases settings with _ | ⟨api', _ | _⟩ <;> cases logger <;> cases api <;> cases context <;> rfl

theorem run_update (config : Config) (options : Options) (levels : List (String × Severity))
    (attributes : List (String × String)) :
    (update options levels attributes).run config =
      ((), config.extended options levels attributes) := by
  obtain ⟨pkg, imports, levels', constants, attributes', logger, api, context⟩ := options
  cases pkg with
  | none => exact run_updateLogger _ _
  | some pkg => exact run_updateLogger _ _

/-- In place as at once: what fails leaves everything as it was. -/
theorem run_apply (config : Config) (options : Options) :
    (apply options).run config = match config.layer options with
      | .ok next => (.ok (), next)
      | .error fault => (.error fault, config) := by
  rw [apply, layer]
  cases options.levels.mapM Options.readLevel with
  | error fault => rfl
  | ok levels =>
    cases options.attributes.mapM Options.readAttribute with
    | error fault => rfl
    | ok attributes =>
      have hupdate := run_update config options levels attributes
      exact congrArg (fun ran : Unit × Config => (Except.ok ran.1, ran.2)) hupdate

theorem run_apply_of_fault (h : options.firstFault? = some fault) (config : Config) :
    (apply options).run config = (.error fault, config) := by
  rw [← fault?_layer config, fault?_eq_some] at h
  rw [run_apply, h]

/-- The entries of the options stand behind those that were there, in their own order. -/
structure Appended (config : Config) (options : Options) (next : Config) : Prop where
  pkg : next.pkg = options.pkg.or config.pkg
  imports : next.imports = config.imports ++ options.imports
  levels : ∃ levels,
    List.Forall₂ (fun value level => Options.readLevel value = .ok level) options.levels levels ∧
      next.levels = config.levels ++ levels
  constants : next.constants = config.constants ++ options.constants
  attributes : ∃ pairs,
    List.Forall₂
      (fun value pair => Options.readAttribute value = .ok pair) options.attributes pairs ∧
      next.attributes = config.attributes ++ pairs
  logger : next.logger = layeredLogger config.logger options

theorem appended_of_layer (h : config.layer options = .ok next) : config.Appended options next := by
  obtain ⟨levels, hl, pairs, ha, rfl⟩ := layer_eq_ok.1 h
  exact ⟨rfl, rfl, ⟨levels, mapM_eq_ok.1 hl, rfl⟩, rfl, ⟨pairs, mapM_eq_ok.1 ha, rfl⟩, rfl⟩

theorem run_apply_of_readable (h : options.Readable) (config : Config) :
    ∃ next, (apply options).run config = (.ok (), next) ∧ config.Appended options next := by
  rw [← Options.firstFault?_eq_none, ← fault?_layer config, fault?_eq_none] at h
  obtain ⟨next, hn⟩ := h
  exact ⟨next, by rw [run_apply, hn], appended_of_layer hn⟩

/-- What options come to, by the answer and the configuration that is then there. -/
structure Applied (config : Config) (options : Options) (answer : Except ConfigFault Unit)
    (next : Config) : Prop where
  fails_iff : (∃ fault, answer = .error fault) ↔ ¬ options.Readable
  fault_iff : ∀ fault, answer = .error fault ↔ options.firstFault? = some fault
  unchanged : ∀ fault, answer = .error fault → next = config
  appended : answer = .ok () → config.Appended options next

theorem applied_run (config : Config) (options : Options) :
    config.Applied options ((apply options).run config).1 ((apply options).run config).2 := by
  cases hf : options.firstFault? with
  | none =>
    have hr := Options.firstFault?_eq_none.1 hf
    obtain ⟨next, hrun, hnext⟩ := run_apply_of_readable hr config
    rw [hrun]
    exact ⟨by simp [hr], by simp [hf], nofun, fun _ => hnext⟩
  | some fault =>
    have hr : ¬ options.Readable := by simp [← Options.firstFault?_eq_none, hf]
    rw [run_apply_of_fault hf]
    exact ⟨by simp [hr], by simp [hf], fun _ _ => rfl, nofun⟩

/-! ## Runs -/

/-- Lays one set of options after the other over the configuration, also behind one that fails. -/
def applyEach : List Options → StateM Config (List (Except ConfigFault Unit))
  | [] => pure []
  | options :: rest => do
    let answer ← (apply options).run
    let answers ← applyEach rest
    pure (answer :: answers)

variable {rest : List Options} {answer : Except ConfigFault Unit}

theorem run_applyEach_cons (h : (apply options).run config = (answer, next)) :
    (applyEach (options :: rest)).run config =
      (answer :: ((applyEach rest).run next).1, ((applyEach rest).run next).2) := by
  have hrun : (applyEach (options :: rest)).run config =
      (((apply options).run config).1 :: ((applyEach rest).run ((apply options).run config).2).1,
        ((applyEach rest).run ((apply options).run config).2).2) := rfl
  rw [hrun, h]

theorem state_applyEach (calls : List Options) (config : Config) :
    ((applyEach calls).run config).2 = ((applyEach (calls.filter (·.Readable))).run config).2 := by
  induction calls generalizing config with
  | nil => rfl
  | cons options rest ih =>
    cases hf : options.firstFault? with
    | none =>
      have hr := Options.firstFault?_eq_none.1 hf
      obtain ⟨next, hrun, -⟩ := run_apply_of_readable hr config
      rw [List.filter_cons_of_pos (by simpa using hr), run_applyEach_cons hrun,
        run_applyEach_cons hrun]
      exact ih next
    | some fault =>
      have hr : ¬ options.Readable := by simp [← Options.firstFault?_eq_none, hf]
      rw [List.filter_cons_of_neg (by simpa using hr),
        run_applyEach_cons (run_apply_of_fault hf config)]
      exact ih config

theorem answers_applyEach {calls : List Options} (h : ∀ options ∈ calls, options.Readable)
    (config : Config) :
    ∀ answer ∈ ((applyEach calls).run config).1, answer = .ok () := by
  induction calls generalizing config with
  | nil => exact nofun
  | cons options rest ih =>
    obtain ⟨hr, hrest⟩ := List.forall_mem_cons.1 h
    obtain ⟨next, hrun, -⟩ := run_apply_of_readable hr config
    rw [run_applyEach_cons hrun, List.forall_mem_cons]
    exact ⟨rfl, ih hrest next⟩

/-- Options that cannot all be read change nothing, and others are added whole. So any run of
options ends where those of them that can be read end, which all succeed. -/
theorem apply_atomic (config : Config) :
    (∀ options,
      config.Applied options ((apply options).run config).1 ((apply options).run config).2) ∧
      ∀ calls : List Options,
        ((applyEach calls).run config).2 = ((applyEach (calls.filter (·.Readable))).run config).2 ∧
          ∀ answer ∈ ((applyEach (calls.filter (·.Readable))).run config).1, answer = .ok () := by
  refine ⟨applied_run config, fun calls =>
    ⟨state_applyEach calls config, answers_applyEach ?_ config⟩⟩
  intro options ho
  simpa using (List.mem_filter.1 ho).2

def unreadableOptions : Options where
  pkg := some "log"
  levels := ["notice:1", "alert"]
  attributes := ["id"]

/-- The first and the third cannot be read. -/
def mixedCalls : List Options :=
  [unreadableOptions, { levels := ["notice:1"], logger := true },
    { imports := ["os"], attributes := ["id:int", "id"] },
    { constants := ["user"], api := some "attr", context := true }]

theorem apply_atomic_mixedCalls :
    (apply unreadableOptions).run {} = (.error (.malformedPair .level "alert"), {}) ∧
      ((applyEach mixedCalls).run {}).1 =
        [.error (.malformedPair .level "alert"), .ok (),
          .error (.malformedPair .attr "id"), .ok ()] ∧
      ((applyEach (mixedCalls.filter (·.Readable))).run {}).1 = [.ok (), .ok ()] ∧
      ((applyEach mixedCalls).run {}).2 = ((applyEach (mixedCalls.filter (·.Readable))).run {}).2 ∧
      ((applyEach mixedCalls).run {}).2 =
        { levels := [("notice", 1)]
          constants := ["user"]
          logger := some { api := some "attr", context := true } } := by
  obtain ⟨hone, hrun⟩ := apply_atomic {}
  have hanswer :=
    ((hone unreadableOptions).fault_iff (.malformedPair .level "alert")).2 (by decide +kernel)
  have hstate := (hone unreadableOptions).unchanged _ hanswer
  exact ⟨Prod.ext hanswer hstate, by decide +kernel, by decide +kernel, (hrun mixedCalls).1,
    by decide +kernel⟩

end Config
end SlogHelpers
