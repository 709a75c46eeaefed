import Mathlib.Data.List.Basic
import SlogHelpers.Proofs.Source.Obligation
import SlogHelpers.Source.Emit

/-!
Which vocabularies have a file, and with which fault the others fail. A file is valid if the names
of its declarations, of its labels and of the logger's members are identifiers without two of a
kind; the fault is that of the first thing that is not so, in the order of the sections.
-/
namespace SlogHelpers.Source
open Fallible

/-- The identifiers of the package, in the order of their declarations. -/
def packageIdentifiers (v : Vocabulary) : List String :=
  v.levels.values.map Name.levelConstant ++ v.constants.toList.map Name.camelCase ++
  v.attributes.keys.map Name.camelCase ++
  (if v.hasCustomLevels then ["ParseLevel", "ReplaceAttr"] else []) ++
  (if v.logger.isSome then ["Logger"] else [])

section
variable {v : Vocabulary} {name : String}

theorem levelConstant_mem_packageIdentifiers (h : name ∈ v.levels.values) :
    Name.levelConstant name ∈ packageIdentifiers v := by
  simp only [packageIdentifiers, List.mem_append]
  exact .inl (.inl (.inl (.inl (List.mem_map_of_mem h))))

theorem constant_mem_packageIdentifiers (h : name ∈ v.constants.toList) :
    Name.camelCase name ∈ packageIdentifiers v := by
  simp only [packageIdentifiers, List.mem_append]
  exact .inl (.inl (.inl (.inr (List.mem_map_of_mem h))))

theorem attribute_mem_packageIdentifiers (h : name ∈ v.attributes.keys) :
    Name.camelCase name ∈ packageIdentifiers v := by
  simp only [packageIdentifiers, List.mem_append]
  exact .inl (.inl (.inr (List.mem_map_of_mem h)))

end

/-- The methods of the logger have valid names, all different and not those of its other members. -/
structure ValidMethods (plan : LoggerPlan) : Prop where
  identifiers : ∀ name ∈ plan.levels.values, isIdentifier (Name.camelCase name) = true
  distinct : (plan.levels.values.map Name.camelCase).Nodup
  not_fixed : ∀ name ∈ plan.levels.values, Name.camelCase name ≠ "Logger" ∧
    Name.camelCase name ≠ "log"

/-- The vocabulary has a file that is valid Go. -/
structure Valid (v : Vocabulary) : Prop where
  package : isIdentifier v.package = true ∧ v.package ≠ "_"
  imports : ∀ path ∈ v.imports, isImportPath path = true
  identifiers : ∀ i ∈ packageIdentifiers v, isIdentifier i = true
  distinct : (packageIdentifiers v).Nodup
  types : ∀ entry ∈ v.attributes.toList, isTypeText entry.2 = true
  labels : v.hasCustomLevels = true → (v.levels.values.map Text.upperText).Nodup
  methods : ∀ plan, v.logger = some plan → ValidMethods plan

variable (v : Vocabulary)

theorem flatMap_nil {α β : Type} (xs : List α) : xs.flatMap (fun _ => ([] : List β)) = [] :=
  List.flatMap_eq_nil_iff.2 fun _ _ => rfl

/-- What the obligations of a vocabulary take, section by section. -/
theorem filterMap_obligations {α : Type} (key : Obligation → Option α) :
    (obligations v).filterMap key =
      (key (.package v.package)).toList ++
        v.imports.toList.filterMap (fun path => key (.importPath path)) ++
      v.levels.values.filterMap (fun name => key (.declaration (.level name))) ++
      v.constants.toList.filterMap (fun name => key (.declaration (.const name))) ++
      v.attributes.toList.flatMap (fun entry =>
        (key (.declaration (.attr entry.1))).toList ++
          (key (.attributeType entry.1 entry.2)).toList) ++
      (helperObligations v).filterMap key ++ (loggerObligations v).filterMap key := by
  have hp : [Obligation.package v.package].filterMap key = (key (.package v.package)).toList := by
    cases h : key (.package v.package) <;> simp [h]
  have ha : ∀ entry : String × String,
      [Obligation.declaration (.attr entry.1), .attributeType entry.1 entry.2].filterMap key =
        (key (.declaration (.attr entry.1))).toList ++
          (key (.attributeType entry.1 entry.2)).toList := by
    intro entry
    cases h : key (.declaration (.attr entry.1)) <;>
      cases h' : key (.attributeType entry.1 entry.2) <;> simp [h, h']
  rw [obligations, ← List.singleton_append]
  simp only [List.filterMap_append, List.filterMap_map, List.filterMap_flatMap,
    Function.comp_def, hp, ha]

theorem declared_obligations :
    (obligations v).filterMap Obligation.declared? = packageIdentifiers v := by
  have hh : (helperObligations v).filterMap Obligation.declared? =
      if v.hasCustomLevels then ["ParseLevel", "ReplaceAttr"] else [] := by
    rw [helperObligations]
    split <;> simp [Obligation.declared?, Declaration.identifier, Function.comp_def]
  have hl : (loggerObligations v).filterMap Obligation.declared? =
      if v.logger.isSome then ["Logger"] else [] := by
    rw [loggerObligations]
    cases v.logger <;>
      simp [Obligation.declared?, Declaration.identifier, Function.comp_def]
  rw [filterMap_obligations, hh, hl, packageIdentifiers, SortedMap.keys]
  simp [Obligation.declared?, Declaration.identifier, List.filterMap_eq_map',
    ← List.map_eq_flatMap]

theorem labels_obligations :
    (obligations v).filterMap Obligation.label? =
      if v.hasCustomLevels then v.levels.values.map Text.upperText else [] := by
  have hh : (helperObligations v).filterMap Obligation.label? =
      if v.hasCustomLevels then v.levels.values.map Text.upperText else [] := by
    rw [helperObligations]
    split <;> simp [List.filterMap_cons, List.filterMap_map, Function.comp_def, Obligation.label?]
  have hl : (loggerObligations v).filterMap Obligation.label? = [] := by
    rw [loggerObligations]
    cases v.logger <;>
      simp [List.filterMap_cons, List.filterMap_map, Function.comp_def, Obligation.label?]
  rw [filterMap_obligations, hh, hl]
  simp [Obligation.label?, flatMap_nil]

theorem members_obligations :
    (obligations v).filterMap Obligation.member? =
      v.logger.elim [] fun plan => plan.levels.values.map Name.camelCase := by
  have hh : (helperObligations v).filterMap Obligation.member? = [] := by
    rw [helperObligations]
    split
    · simp [List.filterMap_cons, List.filterMap_map, Function.comp_def, Obligation.member?]
    · rfl
  have hl : (loggerObligations v).filterMap Obligation.member? =
      v.logger.elim [] fun plan => plan.levels.values.map Name.camelCase := by
    rw [loggerObligations]
    cases v.logger <;>
      simp [List.filterMap_cons, List.filterMap_map, Function.comp_def, Obligation.member?]
  rw [filterMap_obligations, hh, hl]
  simp [Obligation.member?, flatMap_nil]

theorem sound_obligations :
    (∀ o ∈ obligations v, o.Sound) ↔
      isPackageName v.package = true ∧ (∀ path ∈ v.imports, isImportPath path = true) ∧
      (∀ i ∈ packageIdentifiers v, isIdentifier i = true) ∧
      (∀ entry ∈ v.attributes.toList, isTypeText entry.2 = true) ∧
      ∀ plan, v.logger = some plan →
        ∀ name ∈ plan.levels.values, isIdentifier (Name.camelCase name) = true := by
  have hp : isIdentifier "ParseLevel" = true := by decide
  have hr : isIdentifier "ReplaceAttr" = true := by decide
  have hg : isIdentifier "Logger" = true := by decide
  have hh : ∀ o ∈ helperObligations v, o.Sound := by
    rw [helperObligations]
    split
    · simp only [List.forall_mem_append, List.forall_mem_cons, List.forall_mem_map]
      exact ⟨⟨hp, fun _ _ => trivial⟩, hr, nofun⟩
    · nofun
  have hl : (∀ o ∈ loggerObligations v, o.Sound) ↔
      ∀ plan, v.logger = some plan →
        ∀ name ∈ plan.levels.values, isIdentifier (Name.camelCase name) = true := by
    rw [loggerObligations]
    cases v.logger <;> simp [Declaration.identifier, hg]
  have hi : (∀ i ∈ packageIdentifiers v, isIdentifier i = true) ↔
      (∀ name ∈ v.levels.values, isIdentifier (Name.levelConstant name) = true) ∧
      (∀ name ∈ v.constants, isIdentifier (Name.camelCase name) = true) ∧
      ∀ entry ∈ v.attributes.toList, isIdentifier (Name.camelCase entry.1) = true := by
    simp only [packageIdentifiers, SortedMap.keys, List.forall_mem_append, List.forall_mem_map,
      SortedSet.mem_toList]
    cases v.hasCustomLevels <;> cases v.logger <;> simp [hp, hr, hg, and_assoc]
  rw [hi]
  simp only [obligations, List.forall_mem_append, List.forall_mem_cons, List.forall_mem_map,
    List.forall_mem_flatMap, hl, Obligation.sound_package, Obligation.sound_importPath]
  simp only [Obligation.sound_declaration, Declaration.identifier, Obligation.sound_attributeType,
    List.not_mem_nil, false_imp_iff, implies_true, and_true, forall_and, SortedSet.mem_toList]
  constructor
  · intro h
    obtain ⟨⟨⟨⟨⟨⟨hpkg, himp⟩, hlev⟩, hcon⟩, hatt, htyp⟩, -⟩, hlog⟩ := h
    exact ⟨hpkg, himp, ⟨hlev, hcon, hatt⟩, htyp, hlog⟩
  · intro h
    obtain ⟨hpkg, himp, ⟨hlev, hcon, hatt⟩, htyp, hlog⟩ := h
    exact ⟨⟨⟨⟨⟨⟨hpkg, himp⟩, hlev⟩, hcon⟩, hatt, htyp⟩, hh⟩, hlog⟩

theorem nodup_members_iff (plan : LoggerPlan) :
    (fixedMembers ++ plan.levels.values.map Name.camelCase).Nodup ↔
      (plan.levels.values.map Name.camelCase).Nodup ∧
      ∀ name ∈ plan.levels.values, Name.camelCase name ≠ "Logger" ∧
        Name.camelCase name ≠ "log" := by
  have hf : fixedMembers.Nodup := by decide
  rw [List.nodup_append]
  constructor
  · intro h
    obtain ⟨-, hn, hd⟩ := h
    refine ⟨hn, fun name hm => ?_⟩
    have hmem := List.mem_map_of_mem (f := Name.camelCase) hm
    exact ⟨(hd _ (by simp [fixedMembers]) _ hmem).symm, (hd _ (by simp [fixedMembers]) _ hmem).symm⟩
  · intro h
    obtain ⟨hn, hd⟩ := h
    refine ⟨hf, hn, fun a ha b hb => ?_⟩
    obtain ⟨name, hm, rfl⟩ := List.mem_map.1 hb
    obtain rfl | rfl : a = "Logger" ∨ a = "log" := by simpa [fixedMembers] using ha
    · exact (hd name hm).1.symm
    · exact (hd name hm).2.symm

theorem upheld_obligations_iff : Upheld (obligations v) ↔ Valid v := by
  have hpkg : isPackageName v.package = true ↔ isIdentifier v.package = true ∧ v.package ≠ "_" := by
    simp [isPackageName]
  rw [upheld_iff, sound_obligations, declared_obligations, labels_obligations,
    members_obligations, hpkg]
  constructor
  · intro h
    obtain ⟨⟨hp, hi, hid, ht, hm⟩, hd, hl, hmem⟩ := h
    refine ⟨hp, hi, hid, hd, ht, fun hc => ?_, fun plan hplan => ?_⟩
    · simpa [hc] using hl
    · rw [hplan] at hmem
      obtain ⟨hn, hf⟩ := (nodup_members_iff plan).1 hmem
      exact ⟨hm plan hplan, hn, hf⟩
  · intro h
    refine ⟨⟨h.package, h.imports, h.identifiers, h.types, fun plan hp =>
      (h.methods plan hp).identifiers⟩, h.distinct, ?_, ?_⟩
    · split
      · next hc => exact h.labels hc
      · exact List.nodup_nil
    · cases hp : v.logger with
      | none => decide
      | some plan =>
        have hm := h.methods plan hp
        exact (nodup_members_iff plan).2 ⟨hm.distinct, hm.not_fixed⟩

theorem emit_eq_ok {source : String} :
    emit v = .ok source ↔ Valid v ∧ source = fileText (sections v) := by
  rw [emit, bind_eq_ok, ← upheld_obligations_iff]
  constructor
  · intro h
    obtain ⟨scope, hj, hs⟩ := h
    exact ⟨(judgeAll_eq_ok.1 hj).1, (Except.ok.inj hs).symm⟩
  · intro h
    exact ⟨_, judgeAll_eq_ok.2 ⟨h.1, rfl⟩, congrArg Except.ok h.2.symm⟩

theorem emit_eq_error {fault : Fault} :
    emit v = .error fault ↔ FirstBroken (obligations v) fault := by
  rw [← judgeAll_eq_error, emit, bind_eq_error]
  constructor
  · intro h
    obtain h | ⟨scope, -, h⟩ := h
    · exact h
    · cases h
  · exact .inl

/-- A vocabulary has a file exactly if it is valid; if it is not, the fault is that of the first of
its obligations that is broken. -/
theorem emit_outcome :
    ((∃ source, emit v = .ok source) ↔ Valid v) ∧
      ∀ fault, emit v = .error fault ↔ FirstBroken (obligations v) fault := by
  refine ⟨⟨fun h => ?_, fun h => ⟨_, (emit_eq_ok v).2 ⟨h, rfl⟩⟩⟩, fun fault => emit_eq_error v⟩
  obtain ⟨source, hs⟩ := h
  exact ((emit_eq_ok v).1 hs).1

/-! ## The order of the slots -/

/-- The place of an obligation in a file: the package, its imports, the constants of its levels, the
other constants, the attributes, `ParseLevel`, its labels, `ReplaceAttr`, the logger, its
methods. -/
def Obligation.slot : Obligation → Nat
  | .package _ => 0
  | .importPath _ => 1
  | .declaration (.level _) => 2
  | .declaration (.const _) => 3
  | .declaration (.attr _) => 4
  | .attributeType _ _ => 4
  | .declaration .parseLevel => 5
  | .label _ => 6
  | .declaration .replaceAttr => 7
  | .declaration .logger => 8
  | .method _ => 9

theorem label?_eq_none {o : Obligation} (h : o.slot ≠ 6) : o.label? = none := by
  cases o with
  | label name => exact absurd rfl h
  | _ => rfl

/-- The slots ascend, from `first` on and below `last`. -/
structure InSlots (first last : Nat) (os : List Obligation) : Prop where
  le : first ≤ last
  ascending : os.Pairwise (·.slot ≤ ·.slot)
  within : ∀ o ∈ os, first ≤ o.slot ∧ o.slot < last

section InSlots

variable {first middle last : Nat} {os ps : List Obligation}

theorem inSlots_nil (h : first ≤ last) : InSlots first last [] := ⟨h, .nil, nofun⟩

theorem inSlots_of_slot (h : ∀ o ∈ os, o.slot = first) : InSlots first (first + 1) os where
  le := Nat.le_succ _
  ascending := List.pairwise_of_forall_mem_list fun o ho p hp =>
    Nat.le_of_eq ((h o ho).trans (h p hp).symm)
  within := fun o ho => by
    rw [h o ho]
    exact ⟨Nat.le_refl _, Nat.lt_succ_self _⟩

theorem InSlots.append (ho : InSlots first middle os) (hp : InSlots middle last ps) :
    InSlots first last (os ++ ps) where
  le := Nat.le_trans ho.le hp.le
  ascending := by
    refine List.pairwise_append.2 ⟨ho.ascending, hp.ascending, fun o hmo p hmp => ?_⟩
    have hless := (ho.within o hmo).2
    have hmore := (hp.within p hmp).1
    omega
  within := by
    have hfirst := ho.le
    have hlast := hp.le
    refine List.forall_mem_append.2 ⟨fun o hmo => ?_, fun p hmp => ?_⟩
    · have hless := ho.within o hmo
      omega
    · have hmore := hp.within p hmp
      omega

end InSlots

/-- The obligations of a file are in the order of its slots. -/
theorem inSlots_obligations : InSlots 0 10 (obligations v) := by
  have hpackage : InSlots 0 1 [.package v.package] :=
    inSlots_of_slot (List.forall_mem_singleton.2 rfl)
  have himports : InSlots 1 2 (v.imports.toList.map .importPath) :=
    inSlots_of_slot (List.forall_mem_map.2 fun _ _ => rfl)
  have hlevels : InSlots 2 3 (v.levels.values.map fun name => .declaration (.level name)) :=
    inSlots_of_slot (List.forall_mem_map.2 fun _ _ => rfl)
  have hconstants : InSlots 3 4 (v.constants.toList.map fun name => .declaration (.const name)) :=
    inSlots_of_slot (List.forall_mem_map.2 fun _ _ => rfl)
  have hattributes : InSlots 4 5 (v.attributes.toList.flatMap fun entry =>
      [.declaration (.attr entry.1), .attributeType entry.1 entry.2]) :=
    inSlots_of_slot (List.forall_mem_flatMap.2 fun _ _ =>
      List.forall_mem_cons.2 ⟨rfl, List.forall_mem_singleton.2 rfl⟩)
  have hhelpers : InSlots 5 8 (helperObligations v) := by
    rw [helperObligations]
    split
    · have hparse : InSlots 5 6 [.declaration .parseLevel] :=
        inSlots_of_slot (List.forall_mem_singleton.2 rfl)
      have hlabels : InSlots 6 7 (v.levels.values.map .label) :=
        inSlots_of_slot (List.forall_mem_map.2 fun _ _ => rfl)
      have hreplace : InSlots 7 8 [.declaration .replaceAttr] :=
        inSlots_of_slot (List.forall_mem_singleton.2 rfl)
      exact (hparse.append hlabels).append hreplace
    · exact inSlots_nil (by decide)
  have hlogger : InSlots 8 10 (loggerObligations v) := by
    rw [loggerObligations]
    cases v.logger with
    | none => exact inSlots_nil (by decide)
    | some plan =>
      have hdeclared : InSlots 8 9 [.declaration .logger] :=
        inSlots_of_slot (List.forall_mem_singleton.2 rfl)
      have hmethods : InSlots 9 10 (plan.levels.values.map .method) :=
        inSlots_of_slot (List.forall_mem_map.2 fun _ _ => rfl)
      exact hdeclared.append hmethods
  exact (((((hpackage.append himports).append hlevels).append hconstants).append
    hattributes).append hhelpers).append hlogger

/-- The identifiers of the package that are declared in front of a slot. -/
def identifiersBefore (slot : Nat) : List String :=
  (if 2 < slot then v.levels.values.map Name.levelConstant else []) ++
  (if 3 < slot then v.constants.toList.map Name.camelCase else []) ++
  (if 4 < slot then v.attributes.keys.map Name.camelCase else []) ++
  (if v.hasCustomLevels then
    (if 5 < slot then ["ParseLevel"] else []) ++ (if 7 < slot then ["ReplaceAttr"] else [])
  else []) ++
  (if v.logger.isSome then if 8 < slot then ["Logger"] else [] else [])

/-- What a vocabulary has in order in front of a slot of its file. -/
structure ValidBefore (slot : Nat) : Prop where
  package : 0 < slot → isPackageName v.package = true
  imports : 1 < slot → ∀ path ∈ v.imports, isImportPath path = true
  identifiers : ∀ i ∈ identifiersBefore v slot, isIdentifier i = true
  distinct : (identifiersBefore v slot).Nodup
  types : 4 < slot → ∀ entry ∈ v.attributes.toList, isTypeText entry.2 = true
  labels : 6 < slot → v.hasCustomLevels = true → (v.levels.values.map Text.upperText).Nodup

def Obligation.declaredBefore? (slot : Nat) (o : Obligation) : Option String :=
  if o.slot < slot then o.declared? else none

section DeclaredBefore

variable {slot : Nat} {name : String}

theorem declaredBefore?_eq_none {o : Obligation} (h : o.declared? = none) :
    o.declaredBefore? slot = none := by
  rw [Obligation.declaredBefore?, h, ite_self]

theorem filterMap_declaredBefore_singleton (d : Declaration) :
    [Obligation.declaration d].filterMap (Obligation.declaredBefore? slot) =
      if (Obligation.declaration d).slot < slot then [d.identifier] else [] := by
  by_cases h : (Obligation.declaration d).slot < slot
  · have hd : (Obligation.declaration d).declaredBefore? slot = some d.identifier := if_pos h
    rw [List.filterMap_cons_some hd, if_pos h, List.filterMap_nil]
  · have hd : (Obligation.declaration d).declaredBefore? slot = none := if_neg h
    rw [List.filterMap_cons_none hd, if_neg h, List.filterMap_nil]

theorem filterMap_declaredBefore_map (slot : Nat) (make : String → Declaration)
    {f : String → String} {place : Nat}
    (hp : ∀ name, (Obligation.declaration (make name)).slot = place)
    (hi : ∀ name, (make name).identifier = f name) (names : List String) :
    names.filterMap (fun name => (Obligation.declaration (make name)).declaredBefore? slot) =
      if place < slot then names.map f else [] := by
  simp only [Obligation.declaredBefore?, Obligation.declared?, hp, hi]
  split
  · rw [List.filterMap_eq_map']
  · exact List.filterMap_eq_nil_iff.2 fun _ _ => rfl

theorem declaredBefore_sublist (os : List Obligation) :
    (os.filterMap (Obligation.declaredBefore? slot)).Sublist
      (os.filterMap Obligation.declared?) := by
  have hf : os.filterMap (Obligation.declaredBefore? slot) =
      (os.filter (·.slot < slot)).filterMap Obligation.declared? := by
    rw [List.filterMap_filter]
    simp only [decide_eq_true_eq]
    rfl
  rw [hf]
  exact List.filter_sublist.filterMap _

theorem isIdentifier_of_declaredBefore? {o : Obligation} (hs : o.Sound)
    (h : o.declaredBefore? slot = some name) : isIdentifier name = true := by
  rw [Obligation.declaredBefore?, Option.ite_none_right_eq_some] at h
  obtain ⟨-, hd⟩ := h
  cases o with
  | declaration d =>
    cases hd
    exact hs
  | _ => cases hd

end DeclaredBefore

theorem declaredBefore_obligations (slot : Nat) :
    (obligations v).filterMap (Obligation.declaredBefore? slot) = identifiersBefore v slot := by
  have hh : (helperObligations v).filterMap (Obligation.declaredBefore? slot) =
      if v.hasCustomLevels then
        (if 5 < slot then ["ParseLevel"] else []) ++ (if 7 < slot then ["ReplaceAttr"] else [])
      else [] := by
    have hlabels : (v.levels.values.map .label).filterMap (Obligation.declaredBefore? slot) = [] :=
      List.filterMap_eq_nil_iff.2 (List.forall_mem_map.2 fun _ _ => declaredBefore?_eq_none rfl)
    rw [helperObligations]
    split
    · rw [← List.singleton_append, List.filterMap_append, List.filterMap_append, hlabels,
        filterMap_declaredBefore_singleton, filterMap_declaredBefore_singleton, List.append_nil]
      rfl
    · rfl
  have hl : (loggerObligations v).filterMap (Obligation.declaredBefore? slot) =
      if v.logger.isSome then if 8 < slot then ["Logger"] else [] else [] := by
    rw [loggerObligations]
    cases v.logger with
    | none => rfl
    | some plan =>
      have hmethods : (plan.levels.values.map .method).filterMap
          (Obligation.declaredBefore? slot) = [] :=
        List.filterMap_eq_nil_iff.2 (List.forall_mem_map.2 fun _ _ => declaredBefore?_eq_none rfl)
      rw [Option.elim_some, ← List.singleton_append, List.filterMap_append, hmethods,
        filterMap_declaredBefore_singleton, List.append_nil]
      rfl
  have ha : v.attributes.toList.flatMap (fun entry =>
      ((Obligation.declaration (.attr entry.1)).declaredBefore? slot).toList ++
        ((Obligation.attributeType entry.1 entry.2).declaredBefore? slot).toList) =
      if 4 < slot then v.attributes.keys.map Name.camelCase else [] := by
    refine Eq.trans ?_ (filterMap_declaredBefore_map slot .attr (fun _ => rfl) (fun _ => rfl)
      v.attributes.keys)
    rw [SortedMap.keys, List.filterMap_map, List.filterMap_eq_flatMap_toList]
    refine List.flatMap_congr fun entry _ => ?_
    have htype : (Obligation.attributeType entry.1 entry.2).declaredBefore? slot = none :=
      declaredBefore?_eq_none rfl
    rw [htype, Option.toList_none, List.append_nil]
    rfl
  have himports : v.imports.toList.filterMap (fun path =>
      (Obligation.importPath path).declaredBefore? slot) = [] :=
    List.filterMap_eq_nil_iff.2 fun _ _ => declaredBefore?_eq_none rfl
  rw [filterMap_obligations, hh, hl, ha, himports, declaredBefore?_eq_none rfl, identifiersBefore,
    filterMap_declaredBefore_map slot .level (fun _ => rfl) (fun _ => rfl),
    filterMap_declaredBefore_map slot .const (fun _ => rfl) (fun _ => rfl)]
  rfl

theorem validBefore_of_upheld {before after : List Obligation} {o : Obligation}
    (h : obligations v = before ++ o :: after) (hu : Upheld before) : ValidBefore v o.slot := by
  have hs := (inSlots_obligations v).ascending
  rw [h, List.pairwise_append, List.pairwise_cons] at hs
  have hrest : ∀ p ∈ o :: after, o.slot ≤ p.slot :=
    List.forall_mem_cons.2 ⟨Nat.le_refl _, hs.2.1.1⟩
  have hbefore {p : Obligation} (hp : p ∈ obligations v) (hlt : p.slot < o.slot) : p ∈ before := by
    rw [h] at hp
    exact (List.mem_append.1 hp).resolve_right fun hp => Nat.not_lt.2 (hrest p hp) hlt
  have hkeys (key : Obligation → Option String) (hk : ∀ p, o.slot ≤ p.slot → key p = none) :
      (obligations v).filterMap key = before.filterMap key := by
    rw [h, List.filterMap_append, List.filterMap_eq_nil_iff.2 fun p hp => hk p (hrest p hp),
      List.append_nil]
  have hidentifiers : identifiersBefore v o.slot =
      before.filterMap (Obligation.declaredBefore? o.slot) := by
    rw [← declaredBefore_obligations]
    exact hkeys _ fun p hp => if_neg (Nat.not_lt.2 hp)
  obtain ⟨hsound, hdeclared, hlabels, -⟩ := upheld_iff.1 hu
  have hmet {p : Obligation} (hp : p ∈ obligations v) (hlt : p.slot < o.slot) : p.Sound :=
    hsound p (hbefore hp hlt)
  constructor
  · intro hlt
    exact hmet (by simp [obligations] : .package v.package ∈ obligations v) hlt
  · intro hlt path hp
    exact hmet (by simp [obligations, hp] : .importPath path ∈ obligations v) hlt
  · intro i hi
    rw [hidentifiers] at hi
    obtain ⟨p, hp, hd⟩ := List.mem_filterMap.1 hi
    exact isIdentifier_of_declaredBefore? (hsound p hp) hd
  · rw [hidentifiers]
    exact hdeclared.sublist (declaredBefore_sublist before)
  · intro hlt entry he
    have hm : .attributeType entry.1 entry.2 ∈ obligations v := by
      simp only [obligations, List.mem_append]
      exact .inl (.inl (.inr (List.mem_flatMap.2
        ⟨entry, he, List.mem_cons_of_mem _ List.mem_cons_self⟩)))
    exact hmet hm hlt
  · intro hlt hc
    have hall := labels_obligations v
    rw [if_pos hc, hkeys Obligation.label? fun p hp => label?_eq_none (by omega)] at hall
    exact hall ▸ hlabels

/-- A fault of one slot excludes all those of the slots in front of it. -/
theorem validBefore_of_emit_eq_error {fault : Fault} (h : emit v = .error fault) :
    ∃ o ∈ obligations v, (∃ before, Breaks before o fault) ∧ ValidBefore v o.slot := by
  obtain ⟨before, o, after, hs, hu, hb⟩ := (emit_eq_error v).1 h
  exact ⟨o, hs ▸ List.mem_append_right _ List.mem_cons_self, ⟨before, hb⟩,
    validBefore_of_upheld v hs hu⟩

end SlogHelpers.Source
