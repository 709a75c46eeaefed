import SlogHelpers.Proofs.Source.Blocks
import SlogHelpers.Proofs.Source.SectionQualifiers

/-!
The layout of a file: a block for each section that the vocabulary calls for, and one empty line
between any two.
-/
namespace SlogHelpers.Source

/-! ## Sections -/

def Section.opening : Section → String
  | .header => "// Code generated by sloggen. DO NOT EDIT."
  | .package name => "package " ++ name
  | .imports _ => "import "
  | .levelConstants _ => "const "
  | .stringConstants _ => "const "
  | .attribute function _ _ => "func " ++ function ++ "(value "
  | .parseLevel _ => "func ParseLevel(s string) (slog.Level, error) \x7b"
  | .replaceAttr _ => "func ReplaceAttr(_ []string, attr slog.Attr) slog.Attr \x7b"
  | .loggerType => "type Logger struct\x7b Logger *slog.Logger \x7d"
  | .method name _ _ _ => "func (l Logger) " ++ name ++ "("
  | .log _ => "func (l Logger) log(ctx context.Context, level slog.Level, msg string, "

/-- The section has something to write, and nothing in it breaks a line but the type of an
attribute. -/
def Section.Writable : Section → Prop
  | .package name => isIdentifier name = true
  | .imports paths => paths ≠ []
  | .levelConstants levels => levels ≠ [] ∧ ∀ entry ∈ levels, isIdentifier entry.1 = true
  | .stringConstants constants => constants ≠ [] ∧ ∀ entry ∈ constants, isIdentifier entry.1 = true
  | .attribute function _ _ => isIdentifier function = true
  | .parseLevel cases => ∀ entry ∈ cases, isIdentifier entry.2 = true
  | .replaceAttr cases => ∀ entry ∈ cases, isIdentifier entry.1 = true
  | .method name level _ _ => isIdentifier name = true ∧ '\n' ∉ level.text.toList
  | _ => True

def Section.Unbroken : Section → Prop
  | .attribute _ _ type => '\n' ∉ type.toList
  | _ => True

theorem filled_closing : Filled "\x7d" := filled_ofList (by decide)

theorem begun_const : Begun "const ".toList := begun_ofList (by decide)

theorem begun_case : Begun "\tcase ".toList := begun_ofList (by decide)

theorem block_package {name : String} (h : isIdentifier name = true) :
    Block ("package " ++ name) (Section.package name).lines := by
  refine block_of_filled (List.prefix_refl _) fun line hl => ?_
  obtain rfl := List.mem_singleton.1 hl
  exact (begun_ofList (by decide)).filled (finished_identifier h)

theorem block_imports {paths : List String} (h : paths ≠ []) :
    Block "import " (Section.imports paths).lines :=
  block_map h fun _ _ =>
    ⟨prefix_append (List.prefix_refl _), (begun_ofList (by decide)).filled (finished_literal _)⟩

theorem block_levelConstants {levels : List (String × Severity)}
    (h : levels ≠ [] ∧ ∀ entry ∈ levels, isIdentifier entry.1 = true) :
    Block "const " (Section.levelConstants levels).lines :=
  block_map h.1 fun level hl => by
    have hname : '\n' ∉ level.1.toList := newline_not_mem_identifier (h.2 level hl)
    have hequals :=
      (begun_const.append hname).append (t := " = slog.Level(") (unbroken_ofList (by decide))
    refine ⟨?_, (hequals.append level.2.newline_not_mem_text).filled (finished_ofList (by decide))⟩
    iterate 4 refine prefix_append ?_
    exact List.prefix_refl _

theorem block_stringConstants {constants : List (String × String)}
    (h : constants ≠ [] ∧ ∀ entry ∈ constants, isIdentifier entry.1 = true) :
    Block "const " (Section.stringConstants constants).lines :=
  block_map h.1 fun constant hc => by
    have hname : '\n' ∉ constant.1.toList := newline_not_mem_identifier (h.2 constant hc)
    have hequals := (begun_const.append hname).append (t := " = ") (unbroken_ofList (by decide))
    refine ⟨?_, hequals.filled (finished_literal _)⟩
    iterate 3 refine prefix_append ?_
    exact List.prefix_refl _

theorem block_attribute {function type : String} (key : String) (hf : isIdentifier function = true)
    (ht : '\n' ∉ type.toList) :
    Block ("func " ++ function ++ "(value ") (Section.attribute function key type).lines := by
  have hfunc : Begun ("func " ++ function ++ "(value ").toList :=
    ((begun_ofList (by decide)).append (newline_not_mem_identifier hf)).append
      (unbroken_ofList (by decide))
  have hreturn : Begun ("\treturn slog." ++ slogConstructor type ++ "(" ++ literal key).toList :=
    (((begun_ofList (by decide)).append
      (newline_not_mem_identifier (isIdentifier_slogConstructor type))).append
      (unbroken_ofList (by decide))).append newline_not_mem_literal
  refine block_of_filled (prefix_append (prefix_append (List.prefix_refl _))) ?_
  simp only [List.forall_mem_cons]
  exact ⟨(hfunc.append ht).filled (finished_ofList (by decide)),
    hreturn.filled (finished_ofList (by decide)), filled_closing, nofun⟩

theorem block_parseLevel {cases : List (String × String)}
    (h : ∀ entry ∈ cases, isIdentifier entry.2 = true) :
    Block (Section.parseLevel cases).opening (Section.parseLevel cases).lines := by
  refine block_table ?_ ?_ fun entry he => ⟨?_, ?_⟩
  · simp only [List.forall_mem_cons]
    exact ⟨filled_ofList (by decide), filled_ofList (by decide), nofun⟩
  · simp only [List.forall_mem_cons]
    exact ⟨filled_ofList (by decide), filled_ofList (by decide), filled_ofList (by decide),
      filled_closing, nofun⟩
  · exact (begun_case.append newline_not_mem_literal).filled (finished_ofList (by decide))
  · exact ((begun_ofList (by decide)).append (newline_not_mem_identifier (h entry he))).filled
      (finished_ofList (by decide))

theorem block_replaceAttr {cases : List (String × String)}
    (h : ∀ entry ∈ cases, isIdentifier entry.1 = true) :
    Block (Section.replaceAttr cases).opening (Section.replaceAttr cases).lines := by
  refine block_table ?_ ?_ fun entry he => ⟨?_, ?_⟩
  · simp only [List.forall_mem_cons]
    exact ⟨filled_ofList (by decide), filled_ofList (by decide), filled_ofList (by decide),
      filled_ofList (by decide), filled_ofList (by decide), filled_ofList (by decide),
      filled_ofList (by decide), filled_ofList (by decide), filled_ofList (by decide), nofun⟩
  · simp only [List.forall_mem_cons]
    exact ⟨filled_ofList (by decide), filled_ofList (by decide), filled_closing, nofun⟩
  · exact (begun_case.append (newline_not_mem_identifier (h entry he))).filled
      (finished_ofList (by decide))
  · exact ((begun_ofList (by decide)).append newline_not_mem_literal).filled
      (finished_ofList (by decide))

theorem unbroken_variadicParameter (style : ArgumentStyle) :
    '\n' ∉ (variadicParameter style).toList := by
  cases style with
  | any => exact unbroken_ofList (by decide)
  | attr => exact unbroken_ofList (by decide)

theorem unbroken_variadicArgument (style : ArgumentStyle) :
    '\n' ∉ (variadicArgument style).toList := by
  cases style with
  | any => exact unbroken_ofList (by decide)
  | attr => exact unbroken_ofList (by decide)

theorem block_method {name : String} {level : LevelReference} (style : ArgumentStyle)
    (context : Bool) (hn : isIdentifier name = true) (hl : '\n' ∉ level.text.toList) :
    Block ("func (l Logger) " ++ name ++ "(") (Section.method name level style context).lines := by
  have hparameter : '\n' ∉ (if context then "ctx context.Context, " else "").toList := by
    cases context with
    | true => exact unbroken_ofList (by decide)
    | false => exact unbroken_ofList (by decide)
  have hargument : '\n' ∉ (if context then "ctx" else "context.Background()").toList := by
    cases context with
    | true => exact unbroken_ofList (by decide)
    | false => exact unbroken_ofList (by decide)
  have hfunc : Begun ("func (l Logger) " ++ name ++ "(").toList :=
    ((begun_ofList (by decide)).append (newline_not_mem_identifier hn)).append
      (unbroken_ofList (by decide))
  have hcall : Begun "\tl.log(".toList := begun_ofList (by decide)
  have hdeclared :=
    ((hfunc.append hparameter).append (t := "msg string, ") (unbroken_ofList (by decide))).append
    (unbroken_variadicParameter style)
  have hpassed :=
    (((hcall.append hargument).append (t := ", ") (unbroken_ofList (by decide))).append hl).append
    (t := ", msg, ") (unbroken_ofList (by decide))
  refine block_of_filled ?_ ?_
  · iterate 4 refine prefix_append ?_
    exact List.prefix_refl _
  · simp only [List.forall_mem_cons]
    exact ⟨hdeclared.filled (finished_ofList (by decide)),
      (hpassed.append (unbroken_variadicArgument style)).filled (finished_ofList (by decide)),
      filled_closing, nofun⟩

theorem filled_addToRecord (style : ArgumentStyle) : Filled (addToRecord style) := by
  cases style with
  | any => exact filled_ofList (by decide)
  | attr => exact filled_ofList (by decide)

theorem block_log (style : ArgumentStyle) :
    Block (Section.log style).opening (Section.log style).lines := by
  have hguard : Block (Section.log style).opening ((Section.log style).lines.take 4) := by
    refine block_of_filled (prefix_append (prefix_append (List.prefix_refl _))) ?_
    simp only [List.take_succ_cons, List.take_zero, List.forall_mem_cons]
    exact ⟨((begun_ofList (by decide)).append (unbroken_variadicParameter style)).filled
      (finished_ofList (by decide)), filled_ofList (by decide), filled_ofList (by decide),
      filled_ofList (by decide), nofun⟩
  have hcallers : Block "" (((Section.log style).lines.drop 5).take 2) := by
    refine block_of_filled List.nil_prefix ?_
    simp only [List.take_succ_cons, List.take_zero, List.forall_mem_cons]
    exact ⟨filled_ofList (by decide), filled_ofList (by decide), nofun⟩
  have hrecord : Block "" ((Section.log style).lines.drop 8) := by
    refine block_of_filled List.nil_prefix ?_
    simp only [List.forall_mem_cons]
    exact ⟨filled_ofList (by decide), (filled_addToRecord style).indented,
      filled_ofList (by decide), filled_closing, nofun⟩
  exact hguard.spaced (hcallers.spaced hrecord)

theorem block_lines {part : Section} (h : part.Writable) (hu : part.Unbroken) :
    Block part.opening part.lines := by
  cases part with
  | header => exact block_of_filled (List.prefix_refl _) (by simpa using filled_ofList (by decide))
  | package name => exact block_package h
  | imports paths => exact block_imports h
  | levelConstants levels => exact block_levelConstants h
  | stringConstants constants => exact block_stringConstants h
  | «attribute» function key type => exact block_attribute key h hu
  | parseLevel cases => exact block_parseLevel h
  | replaceAttr cases => exact block_replaceAttr h
  | loggerType =>
    exact block_of_filled (List.prefix_refl _) (by simpa using filled_ofList (by decide))
  | method name level style context => exact block_method style context h.1 h.2
  | log style => exact block_log style

/-! ## Files -/

variable {v : Vocabulary}

theorem unbroken_levelReference {name : String} (h : isIdentifier (Name.camelCase name) = true) :
    '\n' ∉ (levelReference v name).text.toList := by
  have hlevel : '\n' ∉ (Name.levelConstant name).toList :=
    unbroken_append (unbroken_ofList (by decide)) (newline_not_mem_identifier h)
  rw [levelReference]
  split
  · exact unbroken_append (unbroken_ofList (by decide)) hlevel
  · exact hlevel

theorem writable_of_calledFor (h : Valid v) {part : Section} (hp : CalledFor v part) :
    part.Writable := by
  have hlevel (name : String) (hn : name ∈ v.levels.values) :
      isIdentifier (Name.levelConstant name) = true :=
    isIdentifier_levelConstant h hn
  cases hp with
  | package => exact h.package.1
  | imports hne => exact hne
  | levelConstants hne =>
    refine ⟨fun hn => hne (List.map_eq_nil_iff.1 hn), List.forall_mem_map.2 fun entry he => ?_⟩
    exact hlevel _ (List.mem_map_of_mem he)
  | stringConstants hne =>
    refine ⟨fun hn => hne (List.map_eq_nil_iff.1 hn), List.forall_mem_map.2 fun name hn => ?_⟩
    exact isIdentifier_constant h hn
  | «attribute» entry he => exact isIdentifier_attribute h (List.mem_map_of_mem he)
  | parseLevel => exact List.forall_mem_map.2 hlevel
  | replaceAttr => exact List.forall_mem_map.2 hlevel
  | method plan name hv hn =>
    have hname := (h.methods plan hv).identifiers name hn
    exact ⟨hname, unbroken_levelReference hname⟩
  | header => trivial
  | loggerType => trivial
  | log style => trivial

theorem unbroken_of_calledFor (ht : ∀ entry ∈ v.attributes.toList, '\n' ∉ entry.2.toList)
    {part : Section} (hp : CalledFor v part) : part.Unbroken := by
  cases hp with
  | «attribute» entry he => exact ht entry he
  | _ => trivial

theorem block_of_mem_sections (h : Valid v)
    (ht : ∀ entry ∈ v.attributes.toList, '\n' ∉ entry.2.toList)
    {part : Section} (hp : part ∈ sections v) : Block part.opening part.lines :=
  block_lines (writable_of_calledFor h (calledFor_of_mem hp))
    (unbroken_of_calledFor ht (calledFor_of_mem hp))

/-- What the blocks of a file begin with: one for the header, one for the package, and one for each
thing that the vocabulary has. -/
def openings (v : Vocabulary) : List String :=
  ["// Code generated by sloggen. DO NOT EDIT.", "package " ++ v.package] ++
  (if v.imports.isEmpty then [] else ["import "]) ++
  (if v.levels.isEmpty then [] else ["const "]) ++
  (if v.constants.isEmpty then [] else ["const "]) ++
  v.attributes.keys.map (fun key => "func " ++ Name.camelCase key ++ "(value ") ++
  (if v.hasCustomLevels then
    ["func ParseLevel(s string) (slog.Level, error) \x7b",
      "func ReplaceAttr(_ []string, attr slog.Attr) slog.Attr \x7b"]
    else []) ++
  v.logger.elim [] fun plan =>
    "type Logger struct\x7b Logger *slog.Logger \x7d" ::
      plan.levels.values.map (fun name => "func (l Logger) " ++ Name.camelCase name ++ "(") ++
      ["func (l Logger) log(ctx context.Context, level slog.Level, msg string, "]

theorem map_opening_sections : (sections v).map Section.opening = openings v := by
  rw [← List.filterMap_eq_map, filterMap_sections]
  simp only [Function.comp_def, Option.toList_some, List.filterMap_eq_map', openings,
    SortedMap.keys, List.map_map, List.cons_append, List.nil_append]
  rfl

def fileLines (parts : List Section) : List String := [""].intercalate (parts.map Section.lines)

theorem fileLines_cons_cons (part next : Section) (parts : List Section) :
    fileLines (part :: next :: parts) = part.lines ++ "" :: fileLines (next :: parts) := by
  rw [fileLines, List.map_cons, List.intercalate_cons_of_ne_nil (by simp)]
  simp [fileLines]

theorem fileText_eq_ended (parts : List Section) : fileText parts = ended (fileLines parts) := by
  induction parts with
  | nil => rfl
  | cons part parts ih =>
    cases parts with
    | nil => simp [fileText, fileLines, ended, Section.text]
    | cons next parts =>
      have hempty :
          ended ("" :: fileLines (next :: parts)) = "\n" ++ ended (fileLines (next :: parts)) :=
        ended_append [""] _
      rw [fileText_cons_cons, ih, fileLines_cons_cons, ended_append, hempty, String.append_assoc]
      rfl

/-- A file is one block itself. -/
theorem block_fileLines {part : Section} {parts : List Section}
    (h : ∀ p ∈ part :: parts, Block p.opening p.lines) :
    Block part.opening (fileLines (part :: parts)) := by
  induction parts generalizing part with
  | nil => simpa [fileLines] using h
  | cons next parts ih =>
    obtain ⟨hpart, hparts⟩ := List.forall_mem_cons.1 h
    rw [fileLines_cons_cons]
    exact hpart.spaced (ih hparts)

/-! ## The end of a file -/

/-- Whatever the types of its attributes are. -/
theorem last_of_writable {part : Section} (h : part.Writable) :
    ∃ line ∈ part.lines.getLast?, Filled line := by
  cases part with
  | «attribute» function key type => exact ⟨_, rfl, filled_closing⟩
  | _ => exact (block_lines h trivial).last

theorem last_fileLines {part : Section} {parts : List Section}
    (h : ∀ p ∈ part :: parts, ∃ line ∈ p.lines.getLast?, Filled line) :
    ∃ line ∈ (fileLines (part :: parts)).getLast?, Filled line := by
  induction parts generalizing part with
  | nil => simpa [fileLines] using h
  | cons next parts ih =>
    obtain ⟨line, hl, hf⟩ := ih (List.forall_mem_cons.1 h).2
    have hne : fileLines (next :: parts) ≠ [] := by
      intro hn
      rw [hn] at hl
      cases hl
    rw [fileLines_cons_cons, List.getLast?_append_of_ne_nil _ (List.cons_ne_nil _ _),
      List.getLast?_cons_of_ne_nil hne]
    exact ⟨line, hl, hf⟩

/-- The text ends in one line break, and not in two. -/
def EndsOnce (cs : List Char) : Prop := ∃ text c, cs = text ++ [c, '\n'] ∧ c ≠ '\n'

theorem endsOnce_ended {lines : List String} (h : ∃ line ∈ lines.getLast?, Filled line) :
    EndsOnce (ended lines).toList := by
  obtain ⟨line, hl, hf⟩ := h
  obtain ⟨c, hc, hblank⟩ := hf.finished.visible
  obtain ⟨earlier, rfl⟩ := List.getLast?_eq_some_iff.1 hl
  obtain ⟨text, ht⟩ := List.getLast?_eq_some_iff.1 hc
  refine ⟨(ended earlier).toList ++ text, c, ?_, ?_⟩
  · rw [ended_append, String.toList_append, toList_ended_cons, ht]
    simp [ended]
  · rintro rfl
    cases hblank

theorem endsOnce_of_emit {source : String} (h : emit v = .ok source) : EndsOnce source.toList := by
  obtain ⟨hv, rfl⟩ := (emit_eq_ok v).1 h
  rw [fileText_eq_ended]
  exact endsOnce_ended (last_fileLines fun part hp =>
    last_of_writable (writable_of_calledFor hv (calledFor_of_mem hp)))

/-! ## The whole file -/

/-- The lines of a file are laid out. -/
structure LaidOut (v : Vocabulary) (lines : List String) : Prop where
  front : ["// Code generated by sloggen. DO NOT EDIT.", "", "package " ++ v.package] <+: lines
  tidy : ∀ line ∈ lines, Tidy line.toList
  /-- No empty line follows an empty one. -/
  single : lines.IsChain fun line next => line = "" → next ≠ ""
  /-- One empty line stands between any two blocks, and nowhere else but inside of them. -/
  blocks : ∃ blocks, lines = [""].intercalate blocks ∧ List.Forall₂ Block (openings v) blocks

/-- A file is its lines, each ended by a line break, if the types of its attributes break no
line. -/
theorem laidOut_of_emit {source : String}
    (ht : ∀ entry ∈ v.attributes.toList, '\n' ∉ entry.2.toList) (h : emit v = .ok source) :
    EndsOnce source.toList ∧ ∃ lines, source = ended lines ∧ LaidOut v lines := by
  obtain ⟨hv, hsource⟩ := (emit_eq_ok v).1 h
  have hblock (part : Section) (hp : part ∈ sections v) : Block part.opening part.lines :=
    block_of_mem_sections hv ht hp
  obtain ⟨parts, hparts⟩ : ∃ parts, sections v = .header :: .package v.package :: parts := ⟨_, rfl⟩
  have hfile : Block Section.header.opening (fileLines (sections v)) := by
    rw [hparts] at hblock ⊢
    exact block_fileLines hblock
  refine ⟨endsOnce_of_emit h, fileLines (sections v), by rw [hsource, fileText_eq_ended], ?_,
    hfile.tidy, hfile.single, (sections v).map Section.lines, rfl, ?_⟩
  · rw [hparts]
    cases parts with
    | nil => exact List.prefix_refl _
    | cons next parts =>
      rw [fileLines_cons_cons, fileLines_cons_cons]
      exact List.prefix_append
        ["// Code generated by sloggen. DO NOT EDIT.", "", "package " ++ v.package] _
  · rw [← map_opening_sections, List.forall₂_map_left_iff, List.forall₂_map_right_iff,
      List.forall₂_same]
    exact hblock

/-- A vocabulary without imports and constants. -/
def traceLogger : Vocabulary where
  package := "slogx"
  imports := .empty
  levels := .ofList [(2, "trace")]
  constants := .empty
  attributes := .ofList [("id", "struct\x7b V any \"a\" \x7d")]
  logger := some { levels := .ofList [(2, "trace")], style := .attr, context := true }

theorem laidOut_of_emit_traceLogger :
    (∀ entry ∈ traceLogger.attributes.toList, '\n' ∉ entry.2.toList) ∧
    ∃ source, emit traceLogger = .ok source ∧ EndsOnce source.toList ∧
      ∃ lines, source = ended lines ∧ LaidOut traceLogger lines := by
  have htypes : ∀ entry ∈ traceLogger.attributes.toList, '\n' ∉ entry.2.toList := by decide
  have hok : (emit traceLogger).isOk = true := by decide +kernel
  obtain ⟨source, he⟩ := Fallible.exists_of_isOk hok
  exact ⟨htypes, source, he, laidOut_of_emit htypes he⟩

end SlogHelpers.Source
