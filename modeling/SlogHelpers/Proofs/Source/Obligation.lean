import SlogHelpers.Proofs.Fallible
import SlogHelpers.Proofs.Lists
import SlogHelpers.Source.Obligation

/-!
What judging a list of obligations comes to, said without the scope that it carries along: an
obligation is broken or not by what stands before it in the list, and the fault of the list is that
of the first broken one.
-/
namespace SlogHelpers.Source
open Fallible SlogHelpers.Lists

def Obligation.declared? : Obligation → Option String
  | .declaration d => some d.identifier
  | _ => none

def Obligation.label? : Obligation → Option String
  | .label name => some (Text.upperText name)
  | _ => none

def Obligation.member? : Obligation → Option String
  | .method name => some (Name.camelCase name)
  | _ => none

/-- The field of the logger and the method that all others go through. -/
def fixedMembers : List String := ["Logger", "log"]

/-- An obligation does not hold after those of `before`, and this is its fault. -/
inductive Breaks (before : List Obligation) : Obligation → Fault → Prop where
  | package {name : String} (h : isPackageName name = false) :
    Breaks before (.package name) (.invalidPackage name)
  | importPath {path : String} (h : isImportPath path = false) :
    Breaks before (.importPath path) (.invalidImport path)
  | noIdentifier {d : Declaration} (h : isIdentifier d.identifier = false) :
    Breaks before (.declaration d) (.invalidIdentifier d.kind d.name d.identifier)
  | declaredBefore {d : Declaration} (h : isIdentifier d.identifier = true)
    (hd : d.identifier ∈ before.filterMap Obligation.declared?) :
    Breaks before (.declaration d) (.duplicateIdentifier d.identifier)
  | noType {key type : String} (h : isTypeText type = false) :
    Breaks before (.attributeType key type) (.invalidType key type)
  | labelledBefore {earlier name : String} (h : .label earlier ∈ before)
    (hu : Text.upperText earlier = Text.upperText name) :
    Breaks before (.label name) (.duplicateLevelName earlier name)
  | noMethod {name : String} (h : isIdentifier (Name.camelCase name) = false) :
    Breaks before (.method name) (.invalidIdentifier "level" name (Name.camelCase name))
  | memberBefore {name : String} (h : isIdentifier (Name.camelCase name) = true)
    (hm : Name.camelCase name ∈ fixedMembers ++ before.filterMap Obligation.member?) :
    Breaks before (.method name) (.duplicateIdentifier ("Logger." ++ Name.camelCase name))

/-- No obligation of the list is broken. -/
def Upheld (os : List Obligation) : Prop :=
  ∀ before o after, os = before ++ o :: after → ∀ fault, ¬ Breaks before o fault

/-- The fault is that of the first obligation that is broken. -/
def FirstBroken (os : List Obligation) (fault : Fault) : Prop :=
  ∃ before o after, os = before ++ o :: after ∧ Upheld before ∧ Breaks before o fault

theorem upheld_nil : Upheld [] := by
  intro before o after h
  simp at h

theorem upheld_snoc {os : List Obligation} {o : Obligation} :
    Upheld (os ++ [o]) ↔ Upheld os ∧ ∀ fault, ¬ Breaks os o fault := by
  constructor
  · intro h
    refine ⟨fun before x after hx => h before x (after ++ [o]) (by simp [hx]), h os o [] rfl⟩
  · rintro ⟨hos, ho⟩ before x after h
    obtain ⟨rfl, rfl, rfl⟩ | ⟨rest, rfl, hrest⟩ := append_singleton_eq_append_cons h
    · exact ho
    · exact hos before x rest hrest

theorem firstBroken_snoc {os : List Obligation} {o : Obligation} {fault : Fault} :
    FirstBroken (os ++ [o]) fault ↔ FirstBroken os fault ∨ (Upheld os ∧ Breaks os o fault) := by
  constructor
  · rintro ⟨before, x, after, h, hu, hb⟩
    obtain ⟨rfl, rfl, rfl⟩ | ⟨rest, rfl, hrest⟩ := append_singleton_eq_append_cons h
    · exact .inr ⟨hu, hb⟩
    · exact .inl ⟨before, x, rest, hrest, hu, hb⟩
  · rintro (⟨before, x, after, h, hu, hb⟩ | ⟨hu, hb⟩)
    · exact ⟨before, x, after ++ [o], by simp [h], hu, hb⟩
    · exact ⟨os, o, [], rfl, hu, hb⟩

/-- What an obligation demands whatever stands before it. -/
def Obligation.Sound : Obligation → Prop
  | .package name => isPackageName name = true
  | .importPath path => isImportPath path = true
  | .declaration d => isIdentifier d.identifier = true
  | .attributeType _ type => isTypeText type = true
  | .label _ => True
  | .method name => isIdentifier (Name.camelCase name) = true

section Sound

variable {name path key type : String} {d : Declaration}

@[simp] theorem Obligation.sound_package :
    (Obligation.package name).Sound ↔ isPackageName name = true := Iff.rfl

@[simp] theorem Obligation.sound_importPath :
    (Obligation.importPath path).Sound ↔ isImportPath path = true := Iff.rfl

@[simp] theorem Obligation.sound_declaration :
    (Obligation.declaration d).Sound ↔ isIdentifier d.identifier = true := Iff.rfl

@[simp] theorem Obligation.sound_attributeType :
    (Obligation.attributeType key type).Sound ↔ isTypeText type = true := Iff.rfl

@[simp] theorem Obligation.sound_label : (Obligation.label name).Sound ↔ True := Iff.rfl

@[simp] theorem Obligation.sound_method :
    (Obligation.method name).Sound ↔ isIdentifier (Name.camelCase name) = true := Iff.rfl

end Sound

theorem mem_labels {before : List Obligation} {name : String} :
    Text.upperText name ∈ before.filterMap Obligation.label? ↔
      ∃ earlier, .label earlier ∈ before ∧ Text.upperText earlier = Text.upperText name := by
  rw [List.mem_filterMap]
  constructor
  · rintro ⟨o, ho, hl⟩
    cases o with
    | label earlier => exact ⟨earlier, ho, Option.some.inj hl⟩
    | _ => cases hl
  · rintro ⟨earlier, he, hu⟩
    exact ⟨.label earlier, he, congrArg some hu⟩

theorem not_breaks_iff {before : List Obligation} {o : Obligation} :
    (∀ fault, ¬ Breaks before o fault) ↔
      o.Sound ∧ (∀ i ∈ o.declared?, i ∉ before.filterMap Obligation.declared?) ∧
      (∀ l ∈ o.label?, l ∉ before.filterMap Obligation.label?) ∧
      ∀ m ∈ o.member?, m ∉ fixedMembers ++ before.filterMap Obligation.member? := by
  constructor
  · intro h
    cases o with
    | package name =>
      have hs : isPackageName name = true := by
        by_contra hn
        exact h _ (.package (Bool.eq_false_iff.2 hn))
      exact ⟨hs, nofun, nofun, nofun⟩
    | importPath path =>
      have hs : isImportPath path = true := by
        by_contra hn
        exact h _ (.importPath (Bool.eq_false_iff.2 hn))
      exact ⟨hs, nofun, nofun, nofun⟩
    | declaration d =>
      have hs : isIdentifier d.identifier = true := by
        by_contra hn
        exact h _ (.noIdentifier (Bool.eq_false_iff.2 hn))
      refine ⟨hs, ?_, nofun, nofun⟩
      rintro i ⟨⟩ hi
      exact h _ (.declaredBefore hs hi)
    | attributeType key type =>
      have hs : isTypeText type = true := by
        by_contra hn
        exact h _ (.noType (Bool.eq_false_iff.2 hn))
      exact ⟨hs, nofun, nofun, nofun⟩
    | label name =>
      refine ⟨trivial, nofun, ?_, nofun⟩
      rintro l ⟨⟩ hl
      obtain ⟨earlier, he, hu⟩ := mem_labels.1 hl
      exact h _ (.labelledBefore he hu)
    | method name =>
      have hs : isIdentifier (Name.camelCase name) = true := by
        by_contra hn
        exact h _ (.noMethod (Bool.eq_false_iff.2 hn))
      refine ⟨hs, nofun, nofun, ?_⟩
      rintro m ⟨⟩ hm
      exact h _ (.memberBefore hs hm)
  · rintro ⟨hs, hd, hl, hm⟩ fault hb
    cases hb with
    | package h => exact absurd hs (by simp [Obligation.Sound, h])
    | importPath h => exact absurd hs (by simp [Obligation.Sound, h])
    | noIdentifier h => exact absurd hs (by simp [Obligation.Sound, h])
    | declaredBefore _ hi => exact hd _ rfl hi
    | noType h => exact absurd hs (by simp [Obligation.Sound, h])
    | labelledBefore he hu => exact hl _ rfl (mem_labels.2 ⟨_, he, hu⟩)
    | noMethod h => exact absurd hs (by simp [Obligation.Sound, h])
    | memberBefore _ hi => exact hm _ rfl hi

/-- Nothing is broken along a list of sound obligations that take nothing twice. -/
theorem upheld_iff {os : List Obligation} :
    Upheld os ↔ (∀ o ∈ os, o.Sound) ∧ (os.filterMap Obligation.declared?).Nodup ∧
      (os.filterMap Obligation.label?).Nodup ∧
      (fixedMembers ++ os.filterMap Obligation.member?).Nodup := by
  induction os using List.reverseRecOn with
  | nil => simp [upheld_nil, fixedMembers]
  | append_singleton os o ih =>
    have hd := nodup_filterMap_snoc [] os o Obligation.declared?
    have hl := nodup_filterMap_snoc [] os o Obligation.label?
    simp only [List.nil_append] at hd hl
    rw [upheld_snoc, ih, not_breaks_iff, hd, hl, nodup_filterMap_snoc]
    simp only [List.mem_append, List.mem_singleton, or_imp, forall_and, forall_eq]
    constructor
    · rintro ⟨⟨hs, hd, hl, hm⟩, hs', hd', hl', hm'⟩
      exact ⟨⟨hs, hs'⟩, ⟨hd, hd'⟩, ⟨hl, hl'⟩, hm, hm'⟩
    · rintro ⟨⟨hs, hs'⟩, ⟨hd, hd'⟩, ⟨hl, hl'⟩, hm, hm'⟩
      exact ⟨⟨hs, hd, hl, hm⟩, hs', hd', hl', hm'⟩

/-- The label of an obligation with the level it is made from. -/
def Obligation.labelEntry? : Obligation → Option (String × String)
  | .label name => some (Text.upperText name, name)
  | _ => none

/-- What the scope has taken once the obligations of the list have been judged. -/
def scopeAfter (os : List Obligation) : Scope where
  identifiers := (os.filterMap Obligation.declared?).reverse
  labels := (os.filterMap Obligation.labelEntry?).reverse
  members := (os.filterMap Obligation.member?).reverse ++ fixedMembers

theorem mem_labelEntries {os : List Obligation} {upper name : String} :
    (upper, name) ∈ os.filterMap Obligation.labelEntry? ↔
      .label name ∈ os ∧ upper = Text.upperText name := by
  rw [List.mem_filterMap]
  constructor
  · rintro ⟨o, ho, hl⟩
    cases o with
    | label n =>
      obtain ⟨rfl, rfl⟩ := Prod.mk.inj (Option.some.inj hl)
      exact ⟨ho, rfl⟩
    | _ => cases hl
  · rintro ⟨h, rfl⟩
    exact ⟨.label name, h, rfl⟩

theorem labels_eq_map (os : List Obligation) :
    os.filterMap Obligation.label? = (os.filterMap Obligation.labelEntry?).map Prod.fst := by
  rw [List.map_filterMap]
  congr 1
  funext o
  cases o <;> rfl

/-- A look-up in the scope finds the level with the label, of which there is one at most. -/
theorem lookup_label {os : List Obligation} (h : Upheld os) {earlier upper : String} :
    (scopeAfter os).labels.lookup upper = some earlier ↔
      .label earlier ∈ os ∧ upper = Text.upperText earlier := by
  have hn := (upheld_iff.1 h).2.2.1
  rw [labels_eq_map] at hn
  have hr : ((scopeAfter os).labels.map Prod.fst).Nodup := by
    rw [scopeAfter, List.map_reverse]
    exact (List.reverse_perm _).nodup_iff.2 hn
  rw [lookup_eq_some_iff_mem hr, ← mem_labelEntries, scopeAfter, List.mem_reverse]

theorem mem_members {os : List Obligation} {m : String} :
    m ∈ (scopeAfter os).members ↔ m ∈ fixedMembers ++ os.filterMap Obligation.member? := by
  rw [scopeAfter, List.mem_append, List.mem_append, List.mem_reverse, or_comm]

theorem scopeAfter_nil : scopeAfter [] = {} := rfl

/-- Judging an obligation in the scope of those before it finds the fault that breaks it. -/
theorem judge_eq_error {os : List Obligation} (h : Upheld os) {o : Obligation} {fault : Fault} :
    o.judge (scopeAfter os) = .error fault ↔ Breaks os o fault := by
  constructor
  · intro hj
    cases o with
    | package name =>
      simp only [Obligation.judge] at hj
      split at hj
      · cases hj
      · next hn => cases hj; exact .package (Bool.eq_false_iff.2 hn)
    | importPath path =>
      simp only [Obligation.judge] at hj
      split at hj
      · cases hj
      · next hn => cases hj; exact .importPath (Bool.eq_false_iff.2 hn)
    | declaration d =>
      simp only [Obligation.judge] at hj
      split at hj
      · next hn => cases hj; exact .noIdentifier (by simpa using hn)
      · next hn =>
        split at hj
        · next hd => cases hj; exact .declaredBefore (by simpa using hn) (List.mem_reverse.1 hd)
        · cases hj
    | attributeType key type =>
      simp only [Obligation.judge] at hj
      split at hj
      · cases hj
      · next hn => cases hj; exact .noType (Bool.eq_false_iff.2 hn)
    | label name =>
      simp only [Obligation.judge] at hj
      split at hj
      · next earlier he =>
        cases hj
        obtain ⟨hm, hu⟩ := (lookup_label h).1 he
        exact .labelledBefore hm hu.symm
      · cases hj
    | method name =>
      simp only [Obligation.judge] at hj
      split at hj
      · next hn => cases hj; exact .noMethod (by simpa using hn)
      · next hn =>
        split at hj
        · next hm =>
          cases hj
          exact .memberBefore (by simpa using hn) (mem_members.1 hm)
        · cases hj
  · intro hb
    cases hb with
    | package hn => simp [Obligation.judge, hn]
    | importPath hn => simp [Obligation.judge, hn]
    | noIdentifier hn => simp [Obligation.judge, hn]
    | declaredBefore hi hd => simp [Obligation.judge, hi, scopeAfter, List.mem_reverse.2 hd]
    | noType hn => simp [Obligation.judge, hn]
    | labelledBefore he hu => simp [Obligation.judge, (lookup_label h).2 ⟨he, hu.symm⟩]
    | noMethod hn => simp [Obligation.judge, hn]
    | memberBefore hi hm =>
      simp [Obligation.judge, hi, mem_members.2 hm]

/-- An obligation that is met adds to the scope what it takes, and nothing else. -/
theorem scope_of_judge_eq_ok {os : List Obligation} {o : Obligation} {scope : Scope}
    (h : o.judge (scopeAfter os) = .ok scope) : scope = scopeAfter (os ++ [o]) := by
  cases o with
  | package name =>
    simp only [Obligation.judge] at h
    split at h <;> cases h
    simp [scopeAfter, Obligation.declared?, Obligation.labelEntry?, Obligation.member?]
  | importPath path =>
    simp only [Obligation.judge] at h
    split at h <;> cases h
    simp [scopeAfter, Obligation.declared?, Obligation.labelEntry?, Obligation.member?]
  | declaration d =>
    simp only [Obligation.judge] at h
    split at h
    · cases h
    · split at h <;> cases h
      simp [scopeAfter, Obligation.declared?, Obligation.labelEntry?, Obligation.member?]
  | attributeType key type =>
    simp only [Obligation.judge] at h
    split at h <;> cases h
    simp [scopeAfter, Obligation.declared?, Obligation.labelEntry?, Obligation.member?]
  | label name =>
    simp only [Obligation.judge] at h
    split at h <;> cases h
    simp [scopeAfter, Obligation.declared?, Obligation.labelEntry?, Obligation.member?]
  | method name =>
    simp only [Obligation.judge] at h
    split at h
    · cases h
    · split at h <;> cases h
      simp [scopeAfter, Obligation.declared?, Obligation.labelEntry?, Obligation.member?]

theorem judge_eq_ok {os : List Obligation} (h : Upheld os) {o : Obligation} {scope : Scope} :
    o.judge (scopeAfter os) = .ok scope ↔
      (∀ fault, ¬ Breaks os o fault) ∧ scope = scopeAfter (os ++ [o]) := by
  constructor
  · intro hj
    refine ⟨fun fault hb => ?_, scope_of_judge_eq_ok hj⟩
    rw [(judge_eq_error h).2 hb] at hj
    cases hj
  · rintro ⟨hn, rfl⟩
    cases hj : o.judge (scopeAfter os) with
    | error fault => exact absurd ((judge_eq_error h).1 hj) (hn fault)
    | ok scope => rw [scope_of_judge_eq_ok hj]

theorem judgeAll_snoc (os : List Obligation) (o : Obligation) :
    judgeAll {} (os ++ [o]) = judgeAll {} os >>= o.judge := by
  simp only [judgeAll, List.foldlM_append, List.foldlM_cons, List.foldlM_nil, bind_pure]

theorem judgeAll_eq_ok {os : List Obligation} {scope : Scope} :
    judgeAll {} os = .ok scope ↔ Upheld os ∧ scope = scopeAfter os := by
  induction os using List.reverseRecOn generalizing scope with
  | nil => simp [judgeAll, upheld_nil, scopeAfter_nil, pure, Except.pure, eq_comm]
  | append_singleton os o ih =>
    rw [judgeAll_snoc, bind_eq_ok, upheld_snoc]
    constructor
    · rintro ⟨before, hb, hj⟩
      obtain ⟨hu, rfl⟩ := ih.1 hb
      obtain ⟨hn, hs⟩ := (judge_eq_ok hu).1 hj
      exact ⟨⟨hu, hn⟩, hs⟩
    · rintro ⟨⟨hu, hn⟩, hs⟩
      exact ⟨scopeAfter os, ih.2 ⟨hu, rfl⟩, (judge_eq_ok hu).2 ⟨hn, hs⟩⟩

theorem judgeAll_eq_error {os : List Obligation} {fault : Fault} :
    judgeAll {} os = .error fault ↔ FirstBroken os fault := by
  induction os using List.reverseRecOn with
  | nil => simp [judgeAll, FirstBroken, pure, Except.pure]
  | append_singleton os o ih =>
    rw [judgeAll_snoc, bind_eq_error, firstBroken_snoc, ih]
    refine or_congr_right ⟨?_, ?_⟩
    · rintro ⟨before, hb, hj⟩
      obtain ⟨hu, rfl⟩ := judgeAll_eq_ok.1 hb
      exact ⟨hu, (judge_eq_error hu).1 hj⟩
    · rintro ⟨hu, hb⟩
      exact ⟨scopeAfter os, judgeAll_eq_ok.2 ⟨hu, rfl⟩, (judge_eq_error hu).2 hb⟩

end SlogHelpers.Source
