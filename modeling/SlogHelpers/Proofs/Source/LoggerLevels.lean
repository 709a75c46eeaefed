import SlogHelpers.Proofs.Source.Layout

/-!
What the text of a file says of the logger's levels: which methods there are, at which level each
logs, and which level the constants and the helpers mean.
-/
namespace SlogHelpers.Source

/-! ## Members of the logger -/

def onLogger (line : List Char) : Bool := "func (l Logger) ".toList.isPrefixOf line

/-- The text is the function of an attribute. The type in it may break lines, so that one may begin
with anything. -/
def isAttributeText (text : String) : Bool :=
  "func ".toList.isPrefixOf text.toList &&
    "(value ".toList.isPrefixOf ((text.toList.drop 5).dropWhile Text.isNameChar)

/-- What the lines of a text declare on the logger, by name, with `none` for a line that has no name
there. -/
def textMembers (text : String) : List (Option String) :=
  if isAttributeText text then []
  else ((text.toList.splitOn '\n').filter onLogger).map declaredMethod?

def declaredMembers (texts : List String) : List (Option String) := texts.flatMap textMembers

def Section.member? : Section → Option String
  | .method name _ _ _ => some name
  | .log _ => some "log"
  | _ => none

variable {v : Vocabulary} {part : Section} {name : String} {level : LevelReference}
  {style : ArgumentStyle} {context : Bool}

theorem onLogger_text (line : String) : onLogger ("func (l Logger) " ++ line).toList = true := by
  rw [onLogger, String.toList_append, List.isPrefixOf_iff_prefix]
  exact List.prefix_append _ _

theorem onLogger_eq_false {line : List Char} (h : line.head? ≠ some 'f') :
    onLogger line = false := by
  refine Bool.eq_false_iff.2 fun hp => h ?_
  obtain ⟨rest, rfl⟩ := List.isPrefixOf_iff_prefix.1 hp
  rfl

theorem isAttributeText_attribute {function key type : String} (h : isIdentifier function = true) :
    isAttributeText (Section.attribute function key type).text = true := by
  obtain ⟨rest, hrest⟩ : ∃ rest, (Section.attribute function key type).text.toList =
      "func ".toList ++ (function.toList ++ ("(value ".toList ++ rest)) :=
    ⟨_, (toList_ended_cons _ _).trans (by simp; rfl)⟩
  have hname : ∀ c ∈ function.toList, Text.isNameChar c = true := fun c hc => isNameChar_of_mem h hc
  have hlength : "func ".toList.length = 5 := by decide
  have hdrop :
      ((Section.attribute function key type).text.toList.drop 5).dropWhile Text.isNameChar =
      "(value ".toList ++ rest := by
    rw [hrest, List.drop_left' hlength, List.dropWhile_append_of_pos hname]
    exact List.dropWhile_cons_of_neg (by decide)
  rw [isAttributeText, hdrop, hrest, Bool.and_eq_true, List.isPrefixOf_iff_prefix,
    List.isPrefixOf_iff_prefix]
  exact ⟨List.prefix_append _ _, List.prefix_append _ _⟩

/-- Where the name of such a function would stand, there is the receiver. -/
theorem isAttributeText_onLogger {line : String} {more : List String} :
    isAttributeText (ended (("func (l Logger) " ++ line) :: more)) = false := by
  have ht : (ended (("func (l Logger) " ++ line) :: more)).toList =
      "func (l Logger) ".toList ++ (line.toList ++ '\n' :: (ended more).toList) := by
    rw [toList_ended_cons, String.toList_append, List.append_assoc]
  rw [isAttributeText, ht, Bool.and_eq_false_iff]
  exact .inr rfl

theorem textMembers_ended {lines : List String} (hu : ∀ line ∈ lines, '\n' ∉ line.toList)
    (ha : isAttributeText (ended lines) = false) :
    textMembers (ended lines) =
      ((lines.map String.toList).filter onLogger).map declaredMethod? := by
  have hlast : [[]].filter onLogger = [] := by decide
  rw [textMembers, ha, if_neg Bool.false_ne_true, splitOn_ended hu, List.filter_append, hlast,
    List.append_nil]

theorem textMembers_eq_nil {lines : List String} (hu : ∀ line ∈ lines, '\n' ∉ line.toList)
    (h : ∀ line ∈ lines, onLogger line.toList = false) : textMembers (ended lines) = [] := by
  cases ha : isAttributeText (ended lines) with
  | true => rw [textMembers, ha, if_pos rfl]
  | false =>
    have hnone : (lines.map String.toList).filter onLogger = [] :=
      List.filter_eq_nil_iff.2 (List.forall_mem_map.2 fun line hl => by simp [h line hl])
    rw [textMembers_ended hu ha, hnone, List.map_nil]

theorem textMembers_declared {rest : String} {more : List String} (hn : isIdentifier name = true)
    (hu : ∀ line ∈ ("func (l Logger) " ++ name ++ "(" ++ rest) :: more, '\n' ∉ line.toList)
    (h : ∀ line ∈ more, onLogger line.toList = false) :
    textMembers (ended (("func (l Logger) " ++ name ++ "(" ++ rest) :: more)) = [some name] := by
  have hnone : (more.map String.toList).filter onLogger = [] :=
    List.filter_eq_nil_iff.2 (List.forall_mem_map.2 fun line hl => by simp [h line hl])
  have hline : "func (l Logger) " ++ name ++ "(" ++ rest =
      "func (l Logger) " ++ (name ++ ("(" ++ rest)) := by
    simp only [String.append_assoc]
  have ha : isAttributeText (ended (("func (l Logger) " ++ name ++ "(" ++ rest) :: more)) = false :=
    hline ▸ isAttributeText_onLogger
  have ho : onLogger ("func (l Logger) " ++ name ++ "(" ++ rest).toList = true :=
    hline ▸ onLogger_text _
  rw [textMembers_ended hu ha, List.map_cons, List.filter_cons_of_pos ho, hnone, List.map_singleton,
    declaredMethod?_text hn]

theorem onLogger_tab {cs : List Char} : onLogger (String.ofList ('\t' :: cs)).toList = false :=
  onLogger_eq_false (by simp)

theorem onLogger_closing : onLogger "\x7d".toList = false := onLogger_eq_false (by simp)

theorem onLogger_ofList {cs : List Char} (h : onLogger cs = false) :
    onLogger (String.ofList cs).toList = false := by
  rwa [String.toList_ofList]

theorem onLogger_lines (h : part.member? = none)
    (ha : ∀ function key type, part ≠ .attribute function key type) :
    ∀ line ∈ part.lines, onLogger line.toList = false := by
  cases part with
  | header => exact List.forall_mem_singleton.2 (onLogger_ofList (by decide))
  | package name => exact List.forall_mem_singleton.2 (onLogger_eq_false (by simp))
  | imports paths => exact List.forall_mem_map.2 fun path _ => onLogger_eq_false (by simp)
  | levelConstants levels => exact List.forall_mem_map.2 fun level _ => onLogger_eq_false (by simp)
  | stringConstants constants =>
    exact List.forall_mem_map.2 fun constant _ => onLogger_eq_false (by simp)
  | «attribute» function key type => exact absurd rfl (ha function key type)
  | parseLevel cases =>
    simp only [Section.lines, List.forall_mem_append, List.forall_mem_cons, List.forall_mem_flatMap]
    refine ⟨⟨⟨onLogger_ofList (by decide), onLogger_tab, List.forall_mem_nil _⟩,
      fun entry _ => ?_⟩, onLogger_tab, onLogger_tab, onLogger_tab, onLogger_closing,
      List.forall_mem_nil _⟩
    exact ⟨onLogger_eq_false (by simp), onLogger_eq_false (by simp), List.forall_mem_nil _⟩
  | replaceAttr cases =>
    simp only [Section.lines, List.forall_mem_append, List.forall_mem_cons, List.forall_mem_flatMap]
    refine ⟨⟨⟨onLogger_ofList (by decide), onLogger_tab, onLogger_tab, onLogger_tab, onLogger_tab,
      onLogger_tab, onLogger_tab, onLogger_tab, onLogger_tab, List.forall_mem_nil _⟩,
      fun entry _ => ?_⟩, onLogger_tab, onLogger_tab, onLogger_closing, List.forall_mem_nil _⟩
    exact ⟨onLogger_eq_false (by simp), onLogger_eq_false (by simp), List.forall_mem_nil _⟩
  | loggerType => exact List.forall_mem_singleton.2 (onLogger_ofList (by decide))
  | method name level style context => cases h
  | log style => cases h

theorem onLogger_log_tail (style : ArgumentStyle) :
    ∀ line ∈ (Section.log style).lines.tail, onLogger line.toList = false := by
  simp only [Section.lines, List.tail_cons, List.forall_mem_cons]
  exact ⟨onLogger_tab, onLogger_tab, onLogger_tab, onLogger_eq_false (by simp), onLogger_tab,
    onLogger_tab, onLogger_eq_false (by simp), onLogger_tab, onLogger_eq_false (by simp),
    onLogger_tab, onLogger_closing, List.forall_mem_nil _⟩

/-- The lines of a section that stand on the logger are the first ones of its methods. -/
theorem textMembers_text (h : part.Writable) :
    textMembers part.text = (part.member?.map some).toList := by
  have hunbroken (hu : part.Unbroken) : ∀ line ∈ part.lines, '\n' ∉ line.toList :=
    fun line hl => ((block_lines h hu).tidy line hl).unbroken
  cases part with
  | «attribute» function key type =>
    rw [textMembers, isAttributeText_attribute h, if_pos rfl]
    rfl
  | method name level style context =>
    have hu := hunbroken trivial
    obtain ⟨rest, call, hlines⟩ : ∃ rest call, (Section.method name level style context).lines =
        ["func (l Logger) " ++ name ++ "(" ++ rest, "\tl.log(" ++ call, "\x7d"] := by
      simp only [Section.lines, String.append_assoc]
      exact ⟨_, _, rfl⟩
    have htext : (Section.method name level style context).text = ended _ := congrArg ended hlines
    rw [hlines] at hu
    rw [htext]
    refine textMembers_declared h.1 hu ?_
    simp only [List.forall_mem_cons]
    exact ⟨onLogger_eq_false (by simp), onLogger_closing, List.forall_mem_nil _⟩
  | log style =>
    have hu := hunbroken trivial
    have hfirst : "func (l Logger) log(ctx context.Context, level slog.Level, msg string, " =
        "func (l Logger) " ++ "log" ++ "(" ++
          "ctx context.Context, level slog.Level, msg string, " := by
      simp only [String.reduceAppend]
    have hlines : (Section.log style).lines = ("func (l Logger) " ++ "log" ++ "(" ++
        ("ctx context.Context, level slog.Level, msg string, " ++
          (variadicParameter style ++ ") \x7b"))) :: (Section.log style).lines.tail := by
      rw [Section.lines, hfirst, String.append_assoc, String.append_assoc]
      rfl
    have htext : (Section.log style).text = ended _ := congrArg ended hlines
    rw [hlines] at hu
    rw [htext]
    exact textMembers_declared (by decide) hu (onLogger_log_tail style)
  | _ => exact textMembers_eq_nil (hunbroken trivial) (onLogger_lines rfl (by simp))

theorem declaredMembers_sections (h : Valid v) {plan : LoggerPlan} (hl : v.logger = some plan) :
    declaredMembers ((sections v).map Section.text) =
      plan.levels.values.map (some ∘ Name.camelCase) ++ [some "log"] := by
  have htexts : ∀ part ∈ sections v, textMembers part.text = (part.member?.map some).toList :=
    fun part hp => textMembers_text (writable_of_calledFor h (calledFor_of_mem hp))
  rw [declaredMembers, List.flatMap_map, List.flatMap_congr htexts,
    ← List.filterMap_eq_flatMap_toList, filterMap_sections, hl]
  simp [Section.member?]

/-! ## Levels of the methods -/

/-- What the texts of a file say of the levels of its vocabulary and of its logger. -/
structure LevelsMeant (v : Vocabulary) (plan : LoggerPlan) (texts : List String) : Prop where
  ascending : plan.levels.keys.Pairwise (· < ·)
  /-- One method for each level of the logger, in order. -/
  methods : List.Forall₂
    (fun entry method => method.1 = Name.camelCase entry.2 ∧
      method.2.Means (!v.levels.isEmpty) (declaredLevels texts) entry.1)
    plan.levels.toList (texts.filterMap method?)
  /-- The logger has no members but these methods and, behind them, the one that they call. -/
  members : declaredMembers texts = plan.levels.values.map (some ∘ Name.camelCase) ++ [some "log"]
  /-- Where the helpers are called for, each has one case for each level of the vocabulary. -/
  parseCases : List.Forall₂
    (fun entry case => case.1 = Text.upperText entry.2 ∧
      DeclaredOnce (declaredLevels texts) case.2 entry.1)
    (if v.hasCustomLevels then v.levels.toList else []) (texts.filterMap parseCases?).flatten
  replaceCases : List.Forall₂
    (fun entry case => DeclaredOnce (declaredLevels texts) case.1 entry.1 ∧
      case.2 = Text.upperText entry.2)
    (if v.hasCustomLevels then v.levels.toList else []) (texts.filterMap replaceCases?).flatten

theorem methods_texts (h : Valid v) {plan : LoggerPlan} (hl : v.logger = some plan)
    (hp : plan.levels = if v.levels.isEmpty then .ofList conventionalLevels else v.levels) :
    ((sections v).map Section.text).filterMap method? =
      plan.levels.toList.map fun entry => (Name.camelCase entry.2, levelReference v entry.2) := by
  have hs : (sections v).filterMap Section.method? =
      plan.levels.toList.map fun entry => (Name.camelCase entry.2, levelReference v entry.2) := by
    rw [methods_sections, hl, Option.elim_some, SortedMap.values, List.map_map]
    rfl
  rw [List.filterMap_map, ← hs]
  refine List.filterMap_congr fun part hpart =>
    method?_text (named_of_mem_sections h hpart) fun found hf => ?_
  have hm : found ∈ (sections v).filterMap Section.method? := List.mem_filterMap.2 ⟨part, hpart, hf⟩
  rw [hs] at hm
  obtain ⟨entry, he, rfl⟩ := List.mem_map.1 hm
  exact ⟨(h.methods plan hl).identifiers _ (List.mem_map_of_mem he),
    isIdentifier_of_means (levelReference_means h hp he)⟩

theorem levelsMeant_sections (h : Valid v) {plan : LoggerPlan} (hl : v.logger = some plan)
    (hp : plan.levels = if v.levels.isEmpty then .ofList conventionalLevels else v.levels) :
    LevelsMeant v plan ((sections v).map Section.text) := by
  refine ⟨List.pairwise_map.2 plan.levels.ascending, ?_, declaredMembers_sections h hl, ?_, ?_⟩
  · rw [methods_texts h hl hp, declaredLevels_texts h, List.forall₂_map_right_iff,
      List.forall₂_same]
    intro entry he
    exact ⟨rfl, levelReference_means h hp he⟩
  · rw [filterMap_texts (fun _ => parseCases?_text) h, parseCases_sections, declaredLevels_texts h]
    split
    · rw [List.flatten_singleton, parseCases_levelHelpers, List.forall₂_map_right_iff,
        List.forall₂_same]
      intro entry he
      exact ⟨rfl, declaredOnce_levelConstant h he⟩
    · exact .nil
  · rw [filterMap_texts (fun _ => replaceCases?_text) h, replaceCases_sections,
      declaredLevels_texts h]
    split
    · rw [List.flatten_singleton, replaceCases_levelHelpers, List.forall₂_map_right_iff,
        List.forall₂_same]
      intro entry he
      exact ⟨declaredOnce_levelConstant h he, rfl⟩
    · exact .nil

/-- The methods of a logger that a configuration asks for log at the severities they are made for,
each through a constant that exists and has that value; so do the helpers that read and write level
names. -/
theorem resolved_levels_meant {config : Config} {source : String} (hl : config.logger.isSome = true)
    (hr : config.resolve = .ok v) (he : emit v = .ok source) :
    source = fileText (sections v) ∧
      ∃ plan, v.logger = some plan ∧ LevelsMeant v plan ((sections v).map Section.text) := by
  obtain ⟨h, hs⟩ := (emit_eq_ok v).1 he
  obtain ⟨plan, hp⟩ : ∃ plan, v.logger = some plan := by
    obtain ⟨-, styled, hstyled, rfl⟩ := Config.resolve_eq_ok.1 hr
    rw [← hstyled.settings, Option.isSome_map] at hl
    obtain ⟨entry, rfl⟩ := Option.isSome_iff_exists.1 hl
    exact ⟨_, rfl⟩
  exact ⟨hs, plan, hp, levelsMeant_sections h hp (levels_of_resolve hr hp)⟩

/-- A level below the conventional ones beside one of theirs. -/
def tracedConfig : Config where
  levels := [("info", 0), ("trace", ⟨-8, by decide, by decide⟩)]
  logger := some {}

theorem resolved_levels_meant_tracedConfig :
    ∃ v source plan, tracedConfig.resolve = .ok v ∧ emit v = .ok source ∧ v.logger = some plan ∧
      plan.levels.values = ["trace", "info"] ∧
        LevelsMeant v plan ((sections v).map Section.text) := by
  obtain ⟨v, hr, hok, hvalues⟩ : ∃ v, tracedConfig.resolve = .ok v ∧ (emit v).isOk = true ∧
      v.logger.map (·.levels.values) = some ["trace", "info"] :=
        ⟨_, rfl, by decide +kernel, by decide +kernel⟩
  cases he : emit v with
  | error fault =>
    rw [he] at hok
    cases hok
  | ok source =>
    obtain ⟨-, plan, hp, hm⟩ := resolved_levels_meant rfl hr he
    rw [hp] at hvalues
    exact ⟨v, source, plan, hr, he, hp, Option.some.inj hvalues, hm⟩

end SlogHelpers.Source
