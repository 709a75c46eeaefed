import Mathlib.Data.List.TakeDrop
import Mathlib.Data.List.TakeWhile
import SlogHelpers.Command.Arguments
import SlogHelpers.Proofs.Lists
import SlogHelpers.Proofs.Rearrangement

/-!
Arguments as words of a command line, and back. Reading takes one occurrence of an option after the
other; each adds to what the arguments hold of its own option and leaves the others as they are, so
that only the order among occurrences of one option counts.
-/
namespace SlogHelpers.Command

/-- An option as it stands on a command line. -/
inductive Occurrence where
  | value (option : ValueOption) (text : String)
  | switch (s : Switch)
  deriving DecidableEq

namespace Occurrence

def parameter : Occurrence → Parameter
  | .value option _ => .value option
  | .switch s => .switch s

def word : Occurrence → String
  | .value option text => "--" ++ option.long ++ "=" ++ text
  | .switch s => "--" ++ s.long

def Allowed : Occurrence → Prop
  | .value .config text => text ≠ ""
  | .value .format text => ∃ written : DocumentSyntax, text = written.name
  | .value .api text => text = "any" ∨ text = "attr"
  | .value .outputDir text => text ≠ ""
  | .switch .help => False
  | .switch .version => False
  | _ => True

end Occurrence

namespace Parameter

/-- The option may come more than once. -/
def repeatable : Parameter → Bool
  | .value .imports | .value .level | .value .const | .value .attr | .switch .verbose => true
  | _ => false

/-- As many occurrences of the option as count. -/
def limited (p : Parameter) (os : List Occurrence) : List Occurrence :=
  if p = .switch .verbose then os.take 255 else os

theorem mem_all (p : Parameter) : p ∈ all := by
  cases p with
  | value option => cases option <;> decide
  | switch s => cases s <;> decide

theorem ofLong?_long (p : Parameter) : ofLong? p.long = some p := by
  have hall : ∀ p ∈ all, ofLong? p.long = some p := by decide +kernel
  exact hall p p.mem_all

theorem equals_not_mem_long (p : Parameter) : '=' ∉ p.long.toList := by
  have hall : ∀ p ∈ all, '=' ∉ p.long.toList := by decide +kernel
  exact hall p p.mem_all

variable {p : Parameter}

theorem limited_of_not_repeatable (h : p.repeatable = false) (os : List Occurrence) :
    p.limited os = os := by
  refine if_neg ?_
  rintro rfl
  cases h

theorem limited_limited_append (os more : List Occurrence) :
    p.limited (p.limited os ++ more) = p.limited (os ++ more) := by
  rw [limited, limited, limited]
  split
  · rw [List.take_append, List.take_take, List.take_append, Nat.min_self, List.length_take]
    congr 2
    omega
  · rfl

end Parameter

namespace Arguments

def valuesOf (a : Arguments) : ValueOption → List String
  | .config => a.config.toList
  | .format => (a.format.map DocumentSyntax.name).toList
  | .pkg => a.options.pkg.toList
  | .imports => a.options.imports
  | .level => a.options.levels
  | .const => a.options.constants
  | .attr => a.options.attributes
  | .api => a.options.api.toList
  | .outputDir => a.outputDir.toList

def timesOf (a : Arguments) : Switch → Nat
  | .logger => a.options.logger.toNat
  | .context => a.options.context.toNat
  | .stdout => a.stdout.toNat
  | .dumpModel => a.dumpModel.toNat
  | .gofmt => a.gofmt.toNat
  | .verbose => a.verbose
  | .help => 0
  | .version => 0

def occurrencesOf (a : Arguments) : Parameter → List Occurrence
  | .value option => (a.valuesOf option).map (.value option)
  | .switch s => List.replicate (a.timesOf s) (.switch s)

/-- The occurrences of all options. -/
def occurrences (a : Arguments) : List Occurrence := Parameter.all.flatMap a.occurrencesOf

def enter (a : Arguments) : Occurrence → Except Stop Arguments
  | .value option text => a.setValue text option
  | .switch s => a.setSwitch s

variable {a b : Arguments} {p : Parameter} {o : Occurrence} {os : List Occurrence}

/-! ## Occurrences -/

theorem parameter_of_mem_occurrencesOf (h : o ∈ a.occurrencesOf p) : o.parameter = p := by
  cases p with
  | value option =>
    obtain ⟨text, -, rfl⟩ := List.mem_map.1 h
    rfl
  | switch s =>
    obtain rfl := List.eq_of_mem_replicate h
    rfl

theorem filter_occurrencesOf (a : Arguments) (p q : Parameter) :
    (a.occurrencesOf q).filter (·.parameter = p) = if q = p then a.occurrencesOf p else [] := by
  split
  · next hq =>
    subst hq
    exact List.filter_eq_self.2 fun o ho => by simpa using parameter_of_mem_occurrencesOf ho
  · next hq =>
    refine List.filter_eq_nil_iff.2 fun o ho => ?_
    rw [parameter_of_mem_occurrencesOf ho]
    simpa using hq

theorem flatMap_ite {α β : Type} [DecidableEq α] {xs : List α} {x : α} (hn : xs.Nodup) (hx : x ∈ xs)
    (ys : List β) :
    xs.flatMap (fun y => if y = x then ys else []) = ys := by
  obtain ⟨before, behind, rfl⟩ := List.append_of_mem hx
  have hnone {more : List α} (hm : x ∉ more) :
      more.flatMap (fun y => if y = x then ys else []) = [] := by
    refine List.flatMap_eq_nil_iff.2 fun y hy => if_neg ?_
    rintro rfl
    exact hm hy
  obtain ⟨-, hbehind, hapart⟩ := List.nodup_append.1 hn
  rw [List.flatMap_append, List.flatMap_cons, hnone fun hm => hapart x hm x List.mem_cons_self rfl,
    hnone (List.nodup_cons.1 hbehind).1, if_pos rfl, List.nil_append, List.append_nil]

theorem filter_occurrences (a : Arguments) (p : Parameter) :
    a.occurrences.filter (·.parameter = p) = a.occurrencesOf p := by
  rw [occurrences, List.filter_flatMap]
  simp only [filter_occurrencesOf]
  exact flatMap_ite (by decide) p.mem_all _

/-- Arguments are told by their occurrences. -/
theorem eq_of_occurrencesOf (h : ∀ p, a.occurrencesOf p = b.occurrencesOf p) : a = b := by
  have hvalues (option : ValueOption) : a.valuesOf option = b.valuesOf option := by
    refine List.map_injective_iff.2 ?_ (h (.value option))
    intro text other he
    cases he
    rfl
  have htimes (s : Switch) : a.timesOf s = b.timesOf s := by
    simpa [occurrencesOf] using congrArg List.length (h (.switch s))
  have hone {α : Type} {x y : Option α} (he : x.toList = y.toList) : x = y := by
    rw [← Option.head?_toList (o := x), he, Option.head?_toList]
  have hflag {x y : Bool} (he : x.toNat = y.toNat) : x = y := by
    cases x <;> cases y <;> first | rfl | cases he
  have hname : Function.Injective DocumentSyntax.name := by
    intro x y
    cases x <;> cases y <;> decide
  have hformat : a.format = b.format := Option.map_injective hname (hone (hvalues .format))
  obtain ⟨config, format, outputDir, stdout, dumpModel, gofmt, verbose, pkg, imports, levels,
    constants, attributes, logger, api, context⟩ := a
  obtain ⟨config', format', outputDir', stdout', dumpModel', gofmt', verbose', pkg', imports',
    levels', constants', attributes', logger', api', context'⟩ := b
  rw [Arguments.mk.injEq, Options.mk.injEq]
  exact ⟨hone (hvalues .config), hformat, hone (hvalues .outputDir), hflag (htimes .stdout),
    hflag (htimes .dumpModel), hflag (htimes .gofmt), htimes .verbose, hone (hvalues .pkg),
    hvalues .imports, hvalues .level, hvalues .const, hvalues .attr, hflag (htimes .logger),
    hone (hvalues .api), hflag (htimes .context)⟩

/-! ## One occurrence -/

/-- With one more occurrence of an option that may come with this value, and now. -/
def added (a : Arguments) : Occurrence → Arguments
  | .value .config text => { a with config := some text }
  | .value .format text => { a with format := namedSyntax? text }
  | .value .pkg text => { a with options := { a.options with pkg := some text } }
  | .value .imports text =>
    { a with options := { a.options with imports := a.options.imports ++ [text] } }
  | .value .level text =>
    { a with options := { a.options with levels := a.options.levels ++ [text] } }
  | .value .const text =>
    { a with options := { a.options with constants := a.options.constants ++ [text] } }
  | .value .attr text =>
    { a with options := { a.options with attributes := a.options.attributes ++ [text] } }
  | .value .api text => { a with options := { a.options with api := some text } }
  | .value .outputDir text => { a with outputDir := some text }
  | .switch .logger => { a with options := { a.options with logger := true } }
  | .switch .context => { a with options := { a.options with context := true } }
  | .switch .stdout => { a with stdout := true }
  | .switch .dumpModel => { a with dumpModel := true }
  | .switch .gofmt => { a with gofmt := true }
  | .switch .verbose => { a with verbose := min 255 (a.verbose + 1) }
  | .switch .help => a
  | .switch .version => a

theorem occurrencesOf_added_of_ne (h : p ≠ o.parameter) :
    (a.added o).occurrencesOf p = a.occurrencesOf p := by
  cases o with
  | value option text =>
    cases p with
    | value other => cases option <;> cases other <;> first | rfl | exact absurd rfl h
    | switch s => cases option <;> cases s <;> rfl
  | switch s =>
    cases p with
    | value option => cases s <;> cases option <;> rfl
    | switch other => cases s <;> cases other <;> first | rfl | exact absurd rfl h

theorem namedSyntax?_name (written : DocumentSyntax) :
    namedSyntax? written.name = some written := by
  cases written <;> decide

theorem once_free {α : Type} {old value : Option α} {x : α} (ho : old = none)
    (hv : value = some x) :
    once old value = .ok (some x) := by
  rw [ho, hv]
  rfl

theorem nonEmpty_of_ne {text : String} (h : text ≠ "") : nonEmpty text = some text := by
  rw [nonEmpty, if_neg (by simpa using h)]

/-- The option does not stand on the command line yet, if it may stand there once. -/
def Free (a : Arguments) (p : Parameter) : Prop := p.repeatable = false → a.occurrencesOf p = []

theorem namedStyle?_of_allowed {text : String} (h : text = "any" ∨ text = "attr") :
    namedStyle? text = some text := by
  obtain rfl | rfl := h
  · rfl
  · rfl

theorem onceSet_off {old : Bool} (h : old = false) : onceSet old a = .ok a := by
  rw [onceSet, h]
  rfl

theorem enter_eq_added (ho : o.Allowed) (hf : a.Free o.parameter) :
    a.enter o = .ok (a.added o) := by
  cases o with
  | value option text =>
    have hvalues (hr : (Parameter.value option).repeatable = false) : a.valuesOf option = [] :=
      List.map_eq_nil_iff.1 (hf hr)
    cases option with
    | config =>
      rw [enter, setValue, once_free (Option.toList_eq_nil_iff.1 (hvalues rfl)) (nonEmpty_of_ne ho)]
      rfl
    | format =>
      obtain ⟨written, rfl⟩ := ho
      have hnone : a.format = none :=
        Option.map_eq_none_iff.1 (Option.toList_eq_nil_iff.1 (hvalues rfl))
      rw [enter, setValue, once_free hnone (namedSyntax?_name written), added, namedSyntax?_name]
      rfl
    | pkg =>
      rw [enter, setValue, once_free (Option.toList_eq_nil_iff.1 (hvalues rfl)) rfl]
      rfl
    | api =>
      rw [enter, setValue,
        once_free (Option.toList_eq_nil_iff.1 (hvalues rfl)) (namedStyle?_of_allowed ho)]
      rfl
    | outputDir =>
      rw [enter, setValue, once_free (Option.toList_eq_nil_iff.1 (hvalues rfl)) (nonEmpty_of_ne ho)]
      rfl
    | _ => rfl
  | switch s =>
    have htimes (hr : (Parameter.switch s).repeatable = false) : a.timesOf s = 0 :=
      (List.replicate_eq_nil_iff _).1 (hf hr)
    cases s with
    | logger => exact onceSet_off (Bool.toNat_eq_zero.1 (htimes rfl))
    | context => exact onceSet_off (Bool.toNat_eq_zero.1 (htimes rfl))
    | stdout => exact onceSet_off (Bool.toNat_eq_zero.1 (htimes rfl))
    | dumpModel => exact onceSet_off (Bool.toNat_eq_zero.1 (htimes rfl))
    | gofmt => exact onceSet_off (Bool.toNat_eq_zero.1 (htimes rfl))
    | verbose => rfl
    | help => exact ho.elim
    | version => exact ho.elim

/-- What is added is one occurrence more of its option. -/
theorem occurrencesOf_added (ho : o.Allowed) (hf : a.Free o.parameter) :
    (a.added o).occurrencesOf o.parameter =
      o.parameter.limited (a.occurrencesOf o.parameter ++ [o]) := by
  cases hr : o.parameter.repeatable with
  | false =>
    rw [hf hr]
    cases o with
    | value option text =>
      cases option with
      | format =>
        obtain ⟨written, rfl⟩ := ho
        simp [occurrencesOf, Occurrence.parameter, valuesOf, added, namedSyntax?_name,
          Parameter.limited]
      | imports => cases hr
      | level => cases hr
      | const => cases hr
      | attr => cases hr
      | _ => rfl
    | switch s =>
      cases s with
      | verbose => cases hr
      | help => exact ho.elim
      | version => exact ho.elim
      | _ => rfl
  | true =>
    cases o with
    | value option text =>
      have happend (xs : List String) : (xs ++ [text]).map (Occurrence.value option) =
          xs.map (Occurrence.value option) ++ [.value option text] := List.map_append
      cases option with
      | imports => exact happend _
      | level => exact happend _
      | const => exact happend _
      | attr => exact happend _
      | _ => cases hr
    | switch s =>
      cases s with
      | verbose =>
        have htimes : List.replicate (min 255 (a.verbose + 1)) (Occurrence.switch .verbose) =
            (List.replicate a.verbose (Occurrence.switch .verbose) ++
              [Occurrence.switch .verbose]).take 255 := by
          rw [← List.replicate_succ', List.take_replicate]
        exact htimes
      | _ => cases hr

/-! ## Whole command lines -/

theorem limited_occurrencesOf_added (ho : o.Allowed) (hf : a.Free o.parameter)
    (hl : ∀ p, p.limited (a.occurrencesOf p) = a.occurrencesOf p) (p : Parameter) :
    p.limited ((a.added o).occurrencesOf p) = (a.added o).occurrencesOf p := by
  by_cases hp : p = o.parameter
  · have hadded := occurrencesOf_added ho hf
    have htwice :=
      Parameter.limited_limited_append (p := o.parameter) (a.occurrencesOf o.parameter ++ [o]) []
    rw [hp, hadded]
    simpa using htwice
  · rw [occurrencesOf_added_of_ne hp, hl]

/-- Reading occurrences adds each to those of its option. -/
theorem foldlM_enter (ha : ∀ o ∈ os, o.Allowed)
    (honce : ∀ p, p.repeatable = false →
      (a.occurrencesOf p ++ os.filter (·.parameter = p)).length ≤ 1)
    (hl : ∀ p, p.limited (a.occurrencesOf p) = a.occurrencesOf p) :
    ∃ next, os.foldlM enter a = .ok next ∧
      ∀ p, next.occurrencesOf p = p.limited (a.occurrencesOf p ++ os.filter (·.parameter = p)) := by
  induction os generalizing a with
  | nil =>
    refine ⟨a, rfl, fun p => ?_⟩
    rw [List.filter_nil, List.append_nil, hl]
  | cons o os ih =>
    obtain ⟨ho, hos⟩ := List.forall_mem_cons.1 ha
    have hfree : a.Free o.parameter := by
      intro hr
      have hlength := honce _ hr
      rw [List.filter_cons_of_pos (by simp), List.length_append, List.length_cons] at hlength
      exact List.length_eq_zero_iff.1 (by omega)
    have hstep (p : Parameter) :
        p.limited ((a.added o).occurrencesOf p ++ os.filter (·.parameter = p)) =
          p.limited (a.occurrencesOf p ++ (o :: os).filter (·.parameter = p)) := by
      by_cases hp : p = o.parameter
      · subst hp
        rw [occurrencesOf_added ho hfree, Parameter.limited_limited_append,
          List.filter_cons_of_pos (by simp), List.append_assoc, List.singleton_append]
      · rw [occurrencesOf_added_of_ne hp, List.filter_cons_of_neg (by simpa using Ne.symm hp)]
    obtain ⟨next, hnext, hholds⟩ := ih hos (a := a.added o)
      (fun p hr => by
        have hsame := hstep p
        rw [Parameter.limited_of_not_repeatable hr, Parameter.limited_of_not_repeatable hr] at hsame
        rw [hsame]
        exact honce p hr)
      (limited_occurrencesOf_added ho hfree hl)
    refine ⟨next, ?_, fun p => (hholds p).trans (hstep p)⟩
    rw [List.foldlM_cons, enter_eq_added ho hfree]
    exact hnext

end Arguments

/-! ## Words -/

namespace Progress

variable {a : Arguments} {o : Occurrence} {os : List Occurrence}

theorem ne_equals {name : List Char} (h : '=' ∉ name) : ∀ c ∈ name, decide (c ≠ '=') = true := by
  intro c hc
  rw [decide_eq_true_eq]
  rintro rfl
  exact h hc

theorem span_equals {name : List Char} (h : '=' ∉ name) (value : List Char) :
    (name ++ '=' :: value).span (· ≠ '=') = (name, '=' :: value) := by
  rw [List.span_eq_takeWhile_dropWhile, List.takeWhile_append_of_pos (ne_equals h),
    List.dropWhile_append_of_pos (ne_equals h)]
  simp

theorem span_of_not_mem {name : List Char} (h : '=' ∉ name) : name.span (· ≠ '=') = (name, []) := by
  rw [List.span_eq_takeWhile_dropWhile, List.takeWhile_eq_self_iff.2 (ne_equals h),
    List.dropWhile_eq_nil_iff.2 (ne_equals h)]

theorem toList_word_value (option : ValueOption) (text : String) :
    (Occurrence.value option text).word.toList =
      '-' :: '-' :: (option.long.toList ++ '=' :: text.toList) := by
  rw [Occurrence.word, String.toList_append, String.toList_append, String.toList_append]
  simp

theorem toList_word_switch (s : Switch) :
    (Occurrence.switch s).word.toList = '-' :: '-' :: s.long.toList := by
  rw [Occurrence.word, String.toList_append]
  rfl

theorem readAny_word (a : Arguments) (o : Occurrence) :
    readAny { arguments := a } o.word = (a.enter o).map fun next => { arguments := next } := by
  cases o with
  | value option text =>
    have hlong : Parameter.ofLong? option.long = some (.value option) :=
      Parameter.ofLong?_long (.value option)
    have hequals : '=' ∉ option.long.toList := Parameter.equals_not_mem_long (.value option)
    rw [readAny, toList_word_value]
    simp only [span_equals hequals]
    rw [String.ofList_toList, String.ofList_toList]
    simp only [readLong, hlong]
    rfl
  | switch s =>
    have hlong : Parameter.ofLong? s.long = some (.switch s) := Parameter.ofLong?_long (.switch s)
    have hequals : '=' ∉ s.long.toList := Parameter.equals_not_mem_long (.switch s)
    rw [readAny, toList_word_switch]
    simp only [span_of_not_mem hequals]
    rw [String.ofList_toList]
    simp only [readLong, hlong]
    rfl

theorem word_ne_dashes (o : Occurrence) : o.word ≠ "--" := by
  intro h
  have hlist := congrArg String.toList h
  cases o with
  | value option text =>
    rw [toList_word_value] at hlist
    simp at hlist
  | switch s =>
    rw [toList_word_switch] at hlist
    cases s <;> cases hlist

theorem readAll_words (a : Arguments) (os : List Occurrence) :
    readAll { arguments := a } (os.map Occurrence.word) =
      (os.foldlM Arguments.enter a).map fun next => { arguments := next } := by
  induction os generalizing a with
  | nil => rfl
  | cons o os ih =>
    rw [List.map_cons, readAll, readAny_word, List.foldlM_cons]
    · cases a.enter o with
      | error stop => rfl
      | ok next => exact ih next
    · exact word_ne_dashes o

end Progress

/-! ## Reading -/

namespace Arguments

variable {a : Arguments} {p : Parameter} {o : Occurrence} {os : List Occurrence}

/-- The arguments hold no value that an option does not take. -/
structure Writable (a : Arguments) : Prop where
  config : a.config ≠ some ""
  outputDir : a.outputDir ≠ some ""
  api : ∀ api ∈ a.options.api, api = "any" ∨ api = "attr"

theorem allowed_of_mem_occurrencesOf (h : a.Writable) (ho : o ∈ a.occurrencesOf p) : o.Allowed := by
  cases p with
  | value option =>
    obtain ⟨text, ht, rfl⟩ := List.mem_map.1 ho
    cases option with
    | config =>
      rintro rfl
      exact h.config (Option.mem_toList.1 ht)
    | format =>
      obtain ⟨written, -, rfl⟩ := Option.map_eq_some_iff.1 (Option.mem_toList.1 ht)
      exact ⟨written, rfl⟩
    | api => exact h.api text (Option.mem_toList.1 ht)
    | outputDir =>
      rintro rfl
      exact h.outputDir (Option.mem_toList.1 ht)
    | _ => trivial
  | switch s =>
    obtain ⟨hn, rfl⟩ := List.mem_replicate.1 ho
    cases s with
    | help => exact hn rfl
    | version => exact hn rfl
    | _ => trivial

theorem length_occurrencesOf_le_one (hr : p.repeatable = false) :
    (a.occurrencesOf p).length ≤ 1 := by
  have hflag (flag : Bool) (s : Switch) :
      (List.replicate flag.toNat (Occurrence.switch s)).length ≤ 1 := by
    rw [List.length_replicate]
    exact flag.toNat_le
  have hone (value : Option String) (option : ValueOption) :
      (value.toList.map (Occurrence.value option)).length ≤ 1 := by
    cases value with
    | none => exact Nat.zero_le 1
    | some text => exact Nat.le_refl 1
  cases p with
  | value option =>
    cases option with
    | config => exact hone _ _
    | format => exact hone _ _
    | pkg => exact hone _ _
    | api => exact hone _ _
    | outputDir => exact hone _ _
    | _ => cases hr
  | switch s =>
    cases s with
    | logger => exact hflag _ _
    | context => exact hflag _ _
    | stdout => exact hflag _ _
    | dumpModel => exact hflag _ _
    | gofmt => exact hflag _ _
    | verbose => cases hr
    | help => exact Nat.zero_le 1
    | version => exact Nat.zero_le 1

theorem occurrencesOf_empty (p : Parameter) : ({} : Arguments).occurrencesOf p = [] := by
  cases p with
  | value option => cases option <;> rfl
  | switch s => cases s <;> rfl

theorem limited_occurrencesOf (a : Arguments) (p : Parameter) :
    p.limited (a.occurrencesOf p) = { a with verbose := min a.verbose 255 }.occurrencesOf p := by
  cases p with
  | value option => cases option <;> rfl
  | switch s =>
    cases s with
    | verbose =>
      have htake : (List.replicate a.verbose (Occurrence.switch .verbose)).take 255 =
          List.replicate (min a.verbose 255) (.switch .verbose) := by
        rw [List.take_replicate, Nat.min_comm]
      exact htake
    | _ => rfl

/-- A command line for the arguments, with its options in any order that keeps that of the
occurrences of each, is read back. Asking for more messages counts up to 255 times. -/
theorem read_rearranged (ha : a.Writable) (houtputs : ¬ (a.stdout = true ∧ a.dumpModel = true))
    (h : Rearranges Occurrence.parameter a.occurrences os) :
    read (os.map Occurrence.word) = .ok { a with verbose := min a.verbose 255 } := by
  have hfilter (p : Parameter) : os.filter (·.parameter = p) = a.occurrencesOf p := by
    rw [← h.filter_eq, filter_occurrences]
  have hallowed : ∀ o ∈ os, o.Allowed := by
    intro o ho
    have hm : o ∈ os.filter (·.parameter = o.parameter) := List.mem_filter.2 ⟨ho, by simp⟩
    rw [hfilter] at hm
    exact allowed_of_mem_occurrencesOf ha hm
  obtain ⟨next, hnext, hholds⟩ := foldlM_enter (a := {}) hallowed
    (fun p hr => by
      rw [occurrencesOf_empty, List.nil_append, hfilter]
      exact length_occurrencesOf_le_one hr)
    (fun p => limited_occurrencesOf {} p)
  have hsame : next = { a with verbose := min a.verbose 255 } := by
    refine eq_of_occurrencesOf fun p => ?_
    rw [hholds, occurrencesOf_empty, List.nil_append, hfilter, limited_occurrencesOf]
  have hread : Progress.readAll {} (os.map Occurrence.word) = .ok { arguments := next } := by
    rw [Progress.readAll_words, hnext]
    rfl
  have hexclusive : (next.stdout && next.dumpModel) = false := by
    rw [hsame]
    simpa using houtputs
  rw [← hsame, read, hread]
  simp only [bind, Except.bind, Progress.settle, hexclusive]
  rfl

/-- Two levels, one of which has an equals sign in its name, and values that are empty or begin with
a dash. -/
def levelArguments : Arguments where
  config := some "-"
  format := some .toml
  stdout := true
  verbose := 2
  options := { pkg := some "", levels := ["--a=b:1", "c:2"], api := some "attr" }

def movedOccurrences : List Occurrence := [
  .switch .verbose, .value .level "--a=b:1", .switch .stdout, .value .api "attr",
  .value .level "c:2", .value .pkg "", .switch .verbose, .value .format "toml", .value .config "-"]

theorem read_rearranged_levelArguments :
    levelArguments.Writable ∧ ¬ (levelArguments.stdout = true ∧ levelArguments.dumpModel = true) ∧
      Rearranges Occurrence.parameter levelArguments.occurrences movedOccurrences ∧
      read ["--verbose", "--level=--a=b:1", "--stdout", "--api=attr", "--level=c:2",
        "--pkg=", "--verbose", "--format=toml", "--config=-"] = .ok levelArguments := by
  have hwritable : levelArguments.Writable := ⟨by decide, by decide, by decide⟩
  have houtputs : ¬ (levelArguments.stdout = true ∧ levelArguments.dumpModel = true) := by decide
  let place : Equiv.Perm (Fin 9) :=
    { toFun := [8, 7, 5, 1, 4, 3, 2, 0, 6].get
      invFun := [7, 3, 6, 5, 4, 2, 8, 1, 0].get
      left_inv := by
        intro i
        decide +revert
      right_inv := by
        intro i
        decide +revert }
  have hmoved : Rearranges Occurrence.parameter levelArguments.occurrences movedOccurrences :=
    ⟨place, by decide, by decide⟩
  have hwords : movedOccurrences.map Occurrence.word =
      ["--verbose", "--level=--a=b:1", "--stdout", "--api=attr",
    "--level=c:2", "--pkg=", "--verbose", "--format=toml", "--config=-"] := by decide +kernel
  exact ⟨hwritable, houtputs, hmoved, hwords ▸ read_rearranged hwritable houtputs hmoved⟩

end Arguments
end SlogHelpers.Command
