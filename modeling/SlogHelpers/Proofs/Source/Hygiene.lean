import SlogHelpers.Proofs.Name
import SlogHelpers.Proofs.Source.SectionReferences

/-!
Names made from a vocabulary stay apart from the names that the generated code has of its own. The
former hold no underscore and begin with no lower-case letter of ASCII, the latter all begin with
one, so that no name of a file stands for two things.
-/
namespace SlogHelpers.Source
open Fallible

variable {name : String}

/-! ## Files -/

variable {v : Vocabulary} {part : Section} {word : String}

/-- The methods of the logger, one for each of its levels. -/
def methodNames (v : Vocabulary) : List String :=
  v.logger.elim [] fun plan => plan.levels.values.map Name.camelCase

/-- The names of a file that come from its vocabulary: the identifiers of the package, the methods
of the logger and the constants of the logger's levels. -/
def generatedNames (v : Vocabulary) : List String :=
  packageIdentifiers v ++ methodNames v ++ v.logger.elim [] fun plan =>
    plan.levels.values.map Name.levelConstant

theorem isCamelCase_of_mem_generatedNames (h : name ∈ generatedNames v) :
    Name.IsCamelCase name := by
  have hfixed : ∀ name ∈ ["ParseLevel", "ReplaceAttr", "Logger"], Name.IsCamelCase name := by
    refine List.forall_mem_cons.2 ⟨?_, List.forall_mem_cons.2 ⟨?_, List.forall_mem_singleton.2 ?_⟩⟩
    all_goals
      refine ⟨?_, by decide⟩
      rw [String.toList_ofList]
      rintro c ⟨⟩
      rfl
  have hlogger {make : String → String} (hmake : ∀ level, Name.IsCamelCase (make level))
      (hn : name ∈ v.logger.elim [] fun plan => plan.levels.values.map make) :
      Name.IsCamelCase name := by
    cases hl : v.logger with
    | none =>
      rw [hl] at hn
      cases hn
    | some plan =>
      rw [hl] at hn
      obtain ⟨level, -, rfl⟩ := List.mem_map.1 hn
      exact hmake level
  simp only [generatedNames, packageIdentifiers, List.mem_append, List.mem_map] at h
  obtain ((((((⟨level, -, rfl⟩ | ⟨constant, -, rfl⟩) | ⟨key, -, rfl⟩) | h) | h) | h) | h) := h
  · exact Name.isCamelCase_levelConstant level
  · exact Name.isCamelCase_camelCase constant
  · exact Name.isCamelCase_camelCase key
  · split at h
    · exact hfixed name (by grind)
    · cases h
  · split at h
    · exact hfixed name (by grind)
    · cases h
  · exact hlogger Name.isCamelCase_camelCase h
  · exact hlogger Name.isCamelCase_levelConstant h

theorem isSome_logger_of_mem (hp : part ∈ sections v) (hl : "Logger" ∈ part.fixed) :
    v.logger.isSome = true := by
  cases hv : v.logger with
  | some plan => rfl
  | none =>
    have hg : part ∈ (sections v).filterMap fun part =>
        if "Logger" ∈ part.fixed then some part else none :=
      List.mem_filterMap.2 ⟨part, hp, if_pos hl⟩
    rw [filterMap_sections, hv] at hg
    simp [Section.fixed] at hg

/-- What a section declares itself is among the identifiers of the package. -/
theorem mem_generatedNames_of_fixed (hp : part ∈ sections v) (hw : word ∈ part.fixed) :
    word ∈ generatedNames v := by
  have hlogger (he : word = "Logger") : word ∈ generatedNames v := by
    have hv := isSome_logger_of_mem hp (he ▸ hw)
    simp [generatedNames, packageIdentifiers, hv, he]
  cases calledFor_of_mem hp with
  | parseLevel hc =>
    obtain rfl := List.mem_singleton.1 hw
    simp [generatedNames, packageIdentifiers, hc]
  | replaceAttr hc =>
    obtain rfl := List.mem_singleton.1 hw
    simp [generatedNames, packageIdentifiers, hc]
  | loggerType => exact hlogger (List.mem_singleton.1 hw)
  | method => exact hlogger (List.mem_singleton.1 hw)
  | log => exact hlogger (List.mem_singleton.1 hw)
  | _ => cases hw

theorem mem_generatedNames_of_made (hp : part ∈ sections v) (hw : word ∈ part.made) :
    word ∈ generatedNames v := by
  have hpackage {name : String} (hn : name ∈ packageIdentifiers v) : name ∈ generatedNames v :=
    List.mem_append_left _ (List.mem_append_left _ hn)
  cases calledFor_of_mem hp with
  | levelConstants =>
    simp only [Section.made, List.map_map, List.mem_map, Function.comp_apply] at hw
    obtain ⟨entry, he, rfl⟩ := hw
    exact hpackage (levelConstant_mem_packageIdentifiers (List.mem_map_of_mem he))
  | stringConstants =>
    simp only [Section.made, List.map_map, List.mem_map, Function.comp_apply] at hw
    obtain ⟨constant, hc, rfl⟩ := hw
    exact hpackage (constant_mem_packageIdentifiers hc)
  | «attribute» entry he =>
    obtain rfl := List.mem_singleton.1 hw
    exact hpackage (attribute_mem_packageIdentifiers (List.mem_map_of_mem he))
  | parseLevel =>
    simp only [Section.made, List.map_map, List.mem_map, Function.comp_apply] at hw
    obtain ⟨level, hl, rfl⟩ := hw
    exact hpackage (levelConstant_mem_packageIdentifiers hl)
  | replaceAttr =>
    simp only [Section.made, List.map_map, List.mem_map, Function.comp_apply] at hw
    obtain ⟨level, hl, rfl⟩ := hw
    exact hpackage (levelConstant_mem_packageIdentifiers hl)
  | method plan level hv hl =>
    rw [generatedNames, methodNames, hv, List.mem_append, List.mem_append]
    obtain rfl | hw := List.mem_cons.1 hw
    · exact .inl (.inr (List.mem_map_of_mem hl))
    · simp only [levelReference] at hw
      split at hw
      · cases hw
      · obtain rfl := List.mem_singleton.1 hw
        exact .inr (List.mem_map_of_mem hl)
  | _ => cases hw

theorem isIdentifier_levelConstant_of_camelCase (h : isIdentifier (Name.camelCase name) = true) :
    isIdentifier (Name.levelConstant name) = true := by
  have hk : Name.levelConstant name ∉ keywords :=
    Name.not_mem_of_areLower (Name.isCamelCase_levelConstant name) (by decide)
  have ht : (Name.levelConstant name).toList =
      'L' :: ("evel".toList ++ (Name.camelCase name).toList) := by
    simp [Name.levelConstant]
  have hrest : ("evel".toList ++ (Name.camelCase name).toList).all Text.isNameChar = true := by
    rw [List.all_append, List.all_eq_true.2 fun c hc =>
      isNameChar_of_mem h hc, String.toList_ofList]
    decide
  rw [isIdentifier, ht, isIdentifierChars, hrest, ← ht, String.ofList_toList, isKeyword]
  simp [hk]
  decide

/-- The names of a valid vocabulary are identifiers, whichever levels its logger has. -/
theorem worded_of_valid (h : Valid v) (hp : part ∈ sections v) : part.Worded := by
  have hnamed := named_of_mem_sections h hp
  cases calledFor_of_mem hp with
  | package => exact h.package.1
  | «attribute» entry he => exact ⟨hnamed, h.types entry he⟩
  | method plan name hv hn =>
    have hm := (h.methods plan hv).identifiers name hn
    refine ⟨hm, ?_⟩
    simp only [levelReference]
    split <;> exact isIdentifier_levelConstant_of_camelCase hm
  | _ => exact hnamed

/-! ## Names taken in advance -/

/-- The scope in which the private method of the logger is taken as well. -/
def Scope.withPrivate (scope : Scope) : Scope :=
  { scope with members := scope.members ++ [privateMethod] }

variable {scope : Scope} {o : Obligation} {os : List Obligation}

/-- No method is made that has the name of the private one. -/
theorem camelCase_ne_privateMethod (name : String) : Name.camelCase name ≠ privateMethod := by
  have hm : Name.camelCase name ∉ [privateMethod] :=
    Name.not_mem_of_areLower (Name.isCamelCase_camelCase name) (by decide)
  exact List.ne_of_not_mem_cons hm

theorem judge_withPrivate : o.judge scope.withPrivate = (o.judge scope).map Scope.withPrivate := by
  cases o with
  | label name =>
    simp only [Obligation.judge, Scope.withPrivate]
    cases scope.labels.lookup (Text.upperText name) with
    | none => rfl
    | some earlier => rfl
  | method name =>
    have hm : Name.camelCase name ∈ scope.members ++ [privateMethod] ↔
        Name.camelCase name ∈ scope.members := by
      simp [camelCase_ne_privateMethod]
    simp only [Obligation.judge, Scope.withPrivate, hm, apply_ite (Except.map Scope.withPrivate)]
    rfl
  | _ =>
    simp only [Obligation.judge, apply_ite (Except.map Scope.withPrivate)]
    rfl

theorem judgeAll_withPrivate :
    judgeAll scope.withPrivate os = (judgeAll scope os).map Scope.withPrivate := by
  induction os generalizing scope with
  | nil => rfl
  | cons o os ih =>
    simp only [judgeAll, List.foldlM_cons] at ih ⊢
    rw [judge_withPrivate]
    cases o.judge scope with
    | error fault => rfl
    | ok next => exact ih

/-- A file comes about, or fails with its fault, as if the private method were not taken in
advance. -/
theorem emit_eq_map_judgeAll (v : Vocabulary) :
    emit v = (judgeAll { members := ["Logger"] } (obligations v)).map fun _ =>
      fileText (sections v) := by
  have hscope : ({} : Scope) = Scope.withPrivate { members := ["Logger"] } := rfl
  rw [emit, hscope, judgeAll_withPrivate]
  cases judgeAll { members := ["Logger"] } (obligations v) with
  | error fault => rfl
  | ok scope => rfl

theorem not_breaks_privateMethod {before : List Obligation} :
    ¬ Breaks before o (.duplicateIdentifier ("Logger." ++ privateMethod)) := by
  intro h
  have hword : isIdentifier ("Logger." ++ privateMethod) = false := by decide
  generalize hf : Fault.duplicateIdentifier ("Logger." ++ privateMethod) = fault at h
  cases h with
  | declaredBefore hi hd =>
    rw [← Fault.duplicateIdentifier.inj hf, hword] at hi
    cases hi
  | @memberBefore name hi hm =>
    exact camelCase_ne_privateMethod name
      (String.append_right_inj _ |>.1 (Fault.duplicateIdentifier.inj hf)).symm
  | _ => cases hf

/-! ## Hygiene -/

/-- Names that come from a vocabulary do not meet those of the generated code. -/
structure Hygienic (v : Vocabulary) : Prop where
  /-- No name begins with a lower-case letter of ASCII or holds an underscore. -/
  exported : ∀ name ∈ generatedNames v, Name.IsCamelCase name
  apart : ∀ name ∈ generatedNames v, name ∉ keywords ∧ name ∉ ownNames localNames
  distinct : (packageIdentifiers v).Nodup
  members : (fixedMembers ++ methodNames v).Nodup
  /-- In each section, what the code declares, imports or has of Go is told apart by name. -/
  own : ∀ part ∈ sections v, part.own.Nodup ∧ part.own ⊆ ownNames localNames
  /-- Each name that the code of a section uses is one of these or comes from the vocabulary, never
  both. -/
  references : ∀ part ∈ sections v, part.package? = none →
    part.pieces.flatMap Piece.text = part.text.toList ∧
    ∀ word ∈ references part.pieces, Xor (word ∈ part.own) (word ∈ generatedNames v)

theorem not_mem_of_mem_generatedNames (h : name ∈ generatedNames v) :
    name ∉ keywords ∧ name ∉ ownNames localNames := by
  have hn := isCamelCase_of_mem_generatedNames h
  exact ⟨Name.not_mem_of_areLower hn (by decide +kernel),
    Name.not_mem_of_areLower hn (by decide +kernel)⟩

theorem locals_subset (part : Section) : part.locals.Nodup ∧ part.locals ⊆ localNames := by
  cases part with
  | method name level style context =>
    cases style <;> cases context <;> simp [Section.locals, methodLocals, variadicName, localNames]
  | log style => cases style <;> simp [Section.locals, variadicName, localNames]
  | _ => simp [Section.locals, localNames]

theorem own_subset (part : Section) : part.own.Nodup ∧ part.own ⊆ ownNames localNames := by
  have hall : (ownNames localNames).Nodup := by decide +kernel
  obtain ⟨hnodup, hsub⟩ := locals_subset part
  simp only [Section.own, ownNames, List.append_assoc] at hall ⊢
  rw [List.nodup_append'] at hall ⊢
  exact ⟨⟨hnodup, hall.2.1, List.disjoint_of_subset_left hsub hall.2.2⟩,
    List.append_subset.2
      ⟨fun word hw => List.mem_append_left _ (hsub hw), List.subset_append_right _ _⟩⟩

theorem hygienic_of_valid (h : Valid v) : Hygienic v where
  exported := fun name hn => isCamelCase_of_mem_generatedNames hn
  apart := fun name hn => not_mem_of_mem_generatedNames hn
  distinct := h.distinct
  members := by
    have hm := (upheld_iff.1 ((upheld_obligations_iff v).2 h)).2.2.2
    rwa [members_obligations] at hm
  own := fun part _ => own_subset part
  references := by
    intro part hp hpackage
    refine ⟨part.flatMap_pieces, fun word hw => ?_⟩
    have hapart (hn : word ∈ generatedNames v) (ho : word ∈ part.own) : False :=
      (not_mem_of_mem_generatedNames hn).2 ((own_subset part).2 ho)
    obtain hword | hmade := (refers_pieces (worded_of_valid h hp) hpackage).mem hw
    · obtain hfixed | hown := List.mem_append.1 hword
      · exact .inr
          ⟨mem_generatedNames_of_fixed hp hfixed, hapart (mem_generatedNames_of_fixed hp hfixed)⟩
      · exact .inl ⟨hown, fun hn => hapart hn hown⟩
    · exact .inr ⟨mem_generatedNames_of_made hp hmade, hapart (mem_generatedNames_of_made hp hmade)⟩

/-- Whatever its levels, constants and attributes are called, a file that comes about has names that
meet none of Go's, of the imports or of the code around them; and taking the private method in
advance turns no vocabulary down. -/
theorem names_hygienic (v : Vocabulary) :
    (∀ source, emit v = .ok source → source = fileText (sections v) ∧ Hygienic v) ∧
      emit v =
        (judgeAll { members := ["Logger"] } (obligations v)).map (fun _ => fileText (sections v)) ∧
      emit v ≠ .error (.duplicateIdentifier ("Logger." ++ privateMethod)) := by
  refine ⟨fun source he => ?_, emit_eq_map_judgeAll v, fun he => ?_⟩
  · obtain ⟨hv, rfl⟩ := (emit_eq_ok v).1 he
    exact ⟨rfl, hygienic_of_valid hv⟩
  · obtain ⟨before, o, after, -, -, hb⟩ := (emit_eq_error v).1 he
    exact not_breaks_privateMethod hb

/-- A level and a constant whose first characters turn into two, and an attribute called like a
keyword. -/
def ligatureVocabulary : Vocabulary where
  package := "log"
  imports := .ofList []
  levels := .ofList [(12, "ŉotice")]
  constants := .ofList ["ﬂag_key"]
  attributes := .ofList [("func", "string")]
  logger := some { levels := .ofList [(12, "ŉotice")], style := .attr, context := true }

theorem names_hygienic_ligatureVocabulary :
    generatedNames ligatureVocabulary =
      ["LevelʼNotice", "FLagKey", "Func", "ParseLevel", "ReplaceAttr", "Logger",
        "ʼNotice", "LevelʼNotice"] ∧
      ∃ source, emit ligatureVocabulary = .ok source ∧
        source = fileText (sections ligatureVocabulary) ∧
        Hygienic ligatureVocabulary := by
  have hok : (emit ligatureVocabulary).isOk = true := by decide +kernel
  obtain ⟨source, he⟩ := exists_of_isOk hok
  exact ⟨by decide +kernel, source, he, (names_hygienic ligatureVocabulary).1 source he⟩

end SlogHelpers.Source
