import SlogHelpers.Proofs.Config.Resolve
import SlogHelpers.Proofs.Source.LevelHelpers

/-!
The methods of the logger, read from their text: what each is called and the level it passes on; and
which level such a name means in a file, by the constants that the file declares and by those of
`log/slog`.
-/
namespace SlogHelpers.Source

/-! ## Methods read back -/

/-- A level as an expression: a constant of the file or one of `log/slog`. -/
def reference? (cs : List Char) : Option LevelReference :=
  if isIdentifierChars cs then some (.declared (String.ofList cs))
  else (between? "slog.".toList [] cs).bind fun constant => (identifier? constant).map .conventional

def declaredMethod? (line : List Char) : Option String :=
  (between? "func (l Logger) ".toList [] line).bind fun rest =>
    if (rest.dropWhile Text.isNameChar).head? = some '(' then
      identifier? (rest.takeWhile Text.isNameChar) else none

/-- The level that a line logs at: the second of four arguments. -/
def loggedLevel? (line : List Char) : Option LevelReference :=
  (between? "\tl.log(".toList ")".toList line).bind fun arguments =>
    match arguments.splitOn ',' with
    | [_, level, _, _] => (between? [' '] [] level).bind reference?
    | _ => none

/-- A method that does nothing but log, with its level. -/
def method? (text : String) : Option (String × LevelReference) :=
  (lines? text.toList).bind fun lines =>
    match lines with
    | [declared, called, _] =>
      (declaredMethod? declared).bind fun name =>
        (loggedLevel? called).map fun level => (name, level)
    | _ => none

def Section.method? : Section → Option (String × LevelReference)
  | .method name level _ _ => some (name, level)
  | _ => none

def LevelReference.constant : LevelReference → String
  | .declared constant => constant
  | .conventional constant => constant

variable {name : String} {level : LevelReference} {style : ArgumentStyle} {context : Bool}

theorem isIdentifierChars_slog (cs : List Char) :
    isIdentifierChars ("slog.".toList ++ cs) = false := by
  refine Bool.eq_false_iff.2 fun h => ?_
  have hdot := isNameChar_of_mem h (c := '.') (by simp)
  cases hdot

theorem reference?_text (h : isIdentifier level.constant = true) :
    reference? level.text.toList = some level := by
  cases level with
  | declared constant =>
    have hi : isIdentifierChars constant.toList = true := h
    rw [reference?, LevelReference.text, if_pos hi, String.ofList_toList]
  | conventional constant =>
    have hi : identifier? constant.toList = some constant := identifier?_toList h
    have hb :
        between? "slog.".toList [] ("slog.".toList ++ constant.toList) = some constant.toList :=
      between?_eq_some.2 (List.append_nil _).symm
    rw [reference?, LevelReference.text, String.toList_append, isIdentifierChars_slog,
      if_neg Bool.false_ne_true, hb, Option.bind_some, hi]
    rfl

theorem declaredMethod?_line (h : isIdentifier name = true) (rest : List Char) :
    declaredMethod? ("func (l Logger) ".toList ++ (name.toList ++ '(' :: rest)) = some name := by
  have hname : ∀ c ∈ name.toList, Text.isNameChar c = true := fun c hc => isNameChar_of_mem h hc
  have hopen : Text.isNameChar '(' = false := by decide
  have hb : between? "func (l Logger) ".toList []
      ("func (l Logger) ".toList ++ (name.toList ++ '(' :: rest)) =
      some (name.toList ++ '(' :: rest) := between?_eq_some.2 (List.append_nil _).symm
  rw [declaredMethod?, hb, Option.bind_some, List.dropWhile_append_of_pos hname,
    List.takeWhile_append_of_pos hname, List.dropWhile_cons_of_neg (by simp [hopen]),
    List.takeWhile_cons_of_neg (by simp [hopen]), List.append_nil, identifier?_toList h]
  rfl

theorem not_mem_levelText (h : isIdentifier level.constant = true) {c : Char}
    (hn : Text.isNameChar c = false) (hd : c ≠ '.') : c ∉ level.text.toList := by
  have hc := not_mem_of_isIdentifier h hn
  cases level with
  | declared constant => exact hc
  | conventional constant =>
    intro hm
    rw [LevelReference.text, String.toList_append, String.toList_ofList] at hm
    obtain hm | hm := List.mem_append.1 hm
    · have hall :
          ['s', 'l', 'o', 'g', '.'].all (fun d => Text.isNameChar d || d == '.') = true := by decide
      have hs := List.all_eq_true.1 hall c hm
      rw [hn, Bool.false_or] at hs
      exact hd (eq_of_beq hs)
    · exact hc hm

theorem loggedLevel?_line {first last : String} (h : isIdentifier level.constant = true)
    (hf : ',' ∉ first.toList) (hl : ',' ∉ last.toList) :
    loggedLevel? ("\tl.log(" ++ (first ++ ", " ++ level.text ++ ", msg, " ++ last) ++ ")").toList =
      some level := by
  have hcomma : ',' ∉ level.text.toList := not_mem_levelText h rfl (by decide)
  have hs : (first ++ ", " ++ level.text ++ ", msg, " ++ last).toList.splitOn ',' =
      [first.toList, ' ' :: level.text.toList, [' ', 'm', 's', 'g'], ' ' :: last.toList] := by
    have ht : (first ++ ", " ++ level.text ++ ", msg, " ++ last).toList =
        first.toList ++ ',' :: ((' ' :: level.text.toList) ++
          ',' :: ([' ', 'm', 's', 'g'] ++ ',' :: (' ' :: last.toList))) := by
      simp
    rw [ht, List.splitOn_append_cons_self_of_not_mem hf,
      List.splitOn_append_cons_self_of_not_mem (by simp [hcomma]),
      List.splitOn_append_cons_self_of_not_mem (by decide),
      List.splitOn_eq_singleton (by simp [hl])]
  have hb : between? [' '] [] (' ' :: level.text.toList) = some level.text.toList :=
    between?_eq_some.2 (List.append_nil _).symm
  rw [loggedLevel?, between?_toList, Option.bind_some, hs]
  dsimp only
  rw [hb, Option.bind_some, reference?_text h]

theorem length_le_of_lines? {lines : List String} {found : List (List Char)}
    (h : lines? (ended lines).toList = some found) : lines.length ≤ found.length := by
  -- A line may hold line ends itself, so the texts are split into as many lines or more.
  have hsplit : lines.length < ((ended lines).toList.splitOn '\n').length := by
    clear h
    induction lines with
    | nil => exact Nat.one_pos
    | cons line rest ih =>
      have hline := List.length_pos_iff.2 (List.splitOn_ne_nil '\n' line.toList)
      rw [toList_ended_cons, List.splitOn_append_cons_self, List.length_append, List.length_cons]
      omega
  rw [lines?] at h
  split at h
  · rw [← Option.some.inj h, List.length_dropLast]
    omega
  · cases h

theorem declaredMethod?_text (h : isIdentifier name = true) (rest : String) :
    declaredMethod? ("func (l Logger) " ++ name ++ "(" ++ rest).toList = some name := by
  have ht : ("func (l Logger) " ++ name ++ "(" ++ rest).toList =
      "func (l Logger) ".toList ++ (name.toList ++ '(' :: rest.toList) := by simp
  rw [ht, declaredMethod?_line h]

theorem method?_method (hn : isIdentifier name = true) (hc : isIdentifier level.constant = true) :
    method? (Section.method name level style context).text = some (name, level) := by
  have hlevel : '\n' ∉ level.text.toList := not_mem_levelText hc rfl (by decide)
  have hline : ∀ line ∈ (Section.method name level style context).lines, '\n' ∉ line.toList := by
    cases style <;> cases context <;>
      simp [Section.lines, variadicParameter, variadicArgument,
        newline_not_mem_identifier hn, hlevel]
  have hlogged (argument : String) (ha : ',' ∉ argument.toList) :
      loggedLevel? ("\tl.log(" ++ argument ++ ", " ++ level.text ++ ", msg, " ++
        variadicArgument style ++ ")").toList = some level := by
    have hv : ',' ∉ (variadicArgument style).toList := by cases style <;> decide
    have ht :
        "\tl.log(" ++ argument ++ ", " ++ level.text ++ ", msg, " ++ variadicArgument style ++ ")" =
        "\tl.log(" ++
          (argument ++ ", " ++ level.text ++ ", msg, " ++ variadicArgument style) ++ ")" := by
      simp only [String.append_assoc]
    rw [ht, loggedLevel?_line hc ha hv]
  have hargument : ',' ∉ (if context then "ctx" else "context.Background()").toList := by
    cases context <;> decide
  have hfirst :=
    declaredMethod?_text hn ((if context then "ctx context.Context, " else "") ++ "msg string, " ++
    variadicParameter style ++ ") \x7b")
  simp only [← String.append_assoc] at hfirst
  rw [method?, lines?_text hline]
  simp only [Section.lines, List.map_cons, List.map_nil, Option.bind_some]
  rw [hfirst, hlogged _ hargument]
  rfl

/-! ## Other sections -/

theorem split_of_method? {text : String} {found : String × LevelReference}
    (h : method? text = some found) :
    ['f', 'u', 'n', 'c', ' ', '('] <+: text.toList ∧
      ∃ a b c, lines? text.toList = some [a, b, c] := by
  obtain ⟨lines, hlines, h⟩ := Option.bind_eq_some_iff.1 h
  split at h
  · next declared called last =>
    obtain ⟨name, hname, -⟩ := Option.bind_eq_some_iff.1 h
    obtain ⟨rest, hrest, -⟩ := Option.bind_eq_some_iff.1 hname
    have hp : "func (l Logger) ".toList <+: declared := by
      rw [between?_eq_some.1 hrest, List.append_nil]
      exact List.prefix_append _ _
    rw [String.toList_ofList] at hp
    refine ⟨List.IsPrefix.trans ⟨_, rfl⟩ (hp.trans (prefix_of_lines? hlines)), _, _, _, hlines⟩
  · cases h

/-- Where a method has its receiver, other functions have their name. -/
theorem not_receiver_attribute_text {function key type : String} (hf : isIdentifier function = true)
    (rest : List Char) :
    ¬ ['f', 'u', 'n', 'c', ' ', '('] <+:
      (Section.attribute function key type).text.toList ++ rest := by
  intro hp
  have hopen : '(' ∉ function.toList := not_mem_of_isIdentifier hf (by decide)
  have hi : isIdentifierChars function.toList = true := hf
  obtain ⟨more, hmore⟩ : ∃ more, (Section.attribute function key type).text.toList =
      ['f', 'u', 'n', 'c', ' '] ++ (function.toList ++ '(' :: more) :=
    ⟨_, (toList_ended_cons _ _).trans (by simp; rfl)⟩
  rw [hmore, List.append_assoc, List.append_assoc] at hp
  have hp : ['('] <+: function.toList ++ ('(' :: more ++ rest) :=
    (List.prefix_append_right_inj ['f', 'u', 'n', 'c', ' ']).1 hp
  cases hcs : function.toList with
  | nil =>
    rw [hcs] at hi
    cases hi
  | cons c cs =>
    rw [hcs] at hp hopen
    exact hopen ((List.cons_prefix_cons.1 hp).1 ▸ List.mem_cons_self)

theorem method?_text {part : Section} (h : part.Named)
    (hm : ∀ found, part.method? = some found →
      isIdentifier found.1 = true ∧ isIdentifier found.2.constant = true) :
    method? part.text = part.method? := by
  have hnone (hp : ¬ ['f', 'u', 'n', 'c', ' ', '('] <+: part.text.toList) :
      method? part.text = none :=
    Option.eq_none_iff_forall_ne_some.2 fun found hf => hp (split_of_method? hf).1
  cases part with
  | method name level style context =>
    obtain ⟨hn, hc⟩ := hm (name, level) rfl
    exact method?_method hn hc
  | log style =>
    -- `log` has the receiver of a method, but more lines.
    refine Option.eq_none_iff_forall_ne_some.2 fun found hf => ?_
    obtain ⟨a, b, c, hlines⟩ := (split_of_method? hf).2
    have hlen : (Section.log style).lines.length ≤ 3 := length_le_of_lines? hlines
    have hlog : (Section.log style).lines.length = 12 := rfl
    omega
  | «attribute» function key type =>
    refine hnone fun hp => ?_
    have hp : ['f', 'u', 'n', 'c', ' ', '('] <+:
        (Section.attribute function key type).text.toList ++ [] := by
      rwa [List.append_nil]
    exact not_receiver_attribute_text h [] hp
  | _ => exact hnone (not_prefix_text (by simp) (by simp [Section.start]) (by simp [Section.start]))

/-! ## Files read back -/

variable {v : Vocabulary}

theorem methods_sections :
    (sections v).filterMap Section.method? = v.logger.elim [] fun plan =>
      plan.levels.values.map fun name => (Name.camelCase name, levelReference v name) := by
  rw [filterMap_sections]
  cases v.logger with
  | none => simp [Section.method?]
  | some plan => simp [Section.method?]

theorem constants_sections :
    ((sections v).filterMap Section.constants?).flatten = (levelHelpers v).constants := by
  rw [filterMap_sections, levelHelpers]
  cases he : v.levels.isEmpty with
  | true => cases v.logger <;> simp [Section.constants?, List.isEmpty_iff.1 he]
  | false => cases v.logger <;> simp [Section.constants?]

/-! ## Levels of the methods -/

def slogLevels : List (String × Int) :=
  [("LevelDebug", -4), ("LevelInfo", 0), ("LevelWarn", 4), ("LevelError", 8)]

/-- The constants of levels that the texts declare. -/
def declaredLevels (texts : List String) : List (String × Severity) :=
  (texts.filterMap constants?).flatten

/-- The constant is declared exactly once, with this value. -/
def DeclaredOnce (declared : List (String × Severity)) (constant : String)
    (severity : Severity) : Prop :=
  (declared.map Prod.fst).count constant = 1 ∧ (constant, severity) ∈ declared

/-- The reference means the severity: through a constant of the file if the file has levels, through
one of `log/slog` if it has none. -/
def LevelReference.Means (hasLevels : Bool) (declared : List (String × Severity))
    (severity : Severity) :
    LevelReference → Prop
  | .declared constant =>
    hasLevels = true ∧ isIdentifier constant = true ∧ DeclaredOnce declared constant severity
  | .conventional constant => hasLevels = false ∧ (constant, severity.toInt) ∈ slogLevels

theorem levels_of_resolve {config : Config} {plan : LoggerPlan} (hr : config.resolve = .ok v)
    (hp : v.logger = some plan) :
    plan.levels = if v.levels.isEmpty then .ofList conventionalLevels else v.levels := by
  obtain ⟨-, styled, -, rfl⟩ := Config.resolve_eq_ok.1 hr
  exact Config.levels_of_named hp

theorem declaredLevels_texts (h : Valid v) :
    declaredLevels ((sections v).map Section.text) = (levelHelpers v).constants := by
  rw [declaredLevels, filterMap_texts (fun _ => constants?_text) h, constants_sections]

theorem declaredOnce_levelConstant (h : Valid v) {entry : Severity × String}
    (he : entry ∈ v.levels.toList) :
    DeclaredOnce (levelHelpers v).constants (Name.levelConstant entry.2) entry.1 := by
  have hm : (Name.levelConstant entry.2, entry.1) ∈ (levelHelpers v).constants :=
    List.mem_map_of_mem he
  exact ⟨List.count_eq_one_of_mem (nodup_constants h) (List.mem_map_of_mem hm), hm⟩

theorem conventional_mem_slogLevels {entry : Severity × String} (he : entry ∈ conventionalLevels) :
    (Name.levelConstant entry.2, entry.1.toInt) ∈ slogLevels := by
  have hall : ∀ entry ∈ conventionalLevels,
      (Name.levelConstant entry.2, entry.1.toInt) ∈ slogLevels := by decide
  exact hall entry he

theorem levelReference_means (h : Valid v) {plan : LoggerPlan}
    (hp : plan.levels = if v.levels.isEmpty then .ofList conventionalLevels else v.levels)
    {entry : Severity × String} (he : entry ∈ plan.levels.toList) :
    (levelReference v entry.2).Means (!v.levels.isEmpty) (levelHelpers v).constants entry.1 := by
  rw [hp] at he
  rw [levelReference]
  cases hempty : v.levels.isEmpty with
  | true =>
    rw [hempty, if_pos rfl] at he
    exact ⟨rfl, conventional_mem_slogLevels he⟩
  | false =>
    rw [hempty, if_neg Bool.false_ne_true] at he
    exact ⟨rfl, isIdentifier_levelConstant h (List.mem_map_of_mem he),
      declaredOnce_levelConstant h he⟩

theorem isIdentifier_of_means {hasLevels : Bool} {declared : List (String × Severity)}
    {severity : Severity}
    {reference : LevelReference} (h : reference.Means hasLevels declared severity) :
    isIdentifier reference.constant = true := by
  cases reference with
  | declared constant => exact h.2.1
  | conventional constant =>
    have hall : ∀ entry ∈ slogLevels, isIdentifier entry.1 = true := by decide
    exact hall _ h.2

end SlogHelpers.Source
