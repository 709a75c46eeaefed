import SlogHelpers.Proofs.Source.Qualifiers

/-!
The packages that each section of a file names, outside of comments, literals and the type of an
attribute.
-/
namespace SlogHelpers.Source

def LevelReference.qualifiers : LevelReference → List String
  | .declared _ => []
  | .conventional _ => ["slog"]

namespace Section

/-- The text of a section, with the type of an attribute apart. -/
def pieces : Section → List Piece
  | .attribute function key type => [
      .code ("func " ++ function ++ "(value ").toList,
      .type type.toList,
      .code (") slog.Attr \x7b\n\treturn slog." ++ slogConstructor type ++ "(" ++ literal key ++
        ", value)\n\x7d\n").toList]
  | part => [.code part.text.toList]

theorem flatMap_pieces (part : Section) : part.pieces.flatMap Piece.text = part.text.toList := by
  cases part with
  | «attribute» function key type => simp [pieces, text, lines, Piece.text]
  | _ =>
    rw [pieces, List.flatMap_singleton, Piece.text]
    rintro _ _ _ ⟨⟩

def qualifiers : Section → List String
  | .levelConstants levels => levels.map fun _ => "slog"
  | .attribute _ _ _ => ["slog", "slog"]
  | .parseLevel _ => ["slog", "strings", "fmt"]
  | .replaceAttr cases =>
    ["slog", "slog", "attr", "slog", "attr", "slog"] ++ cases.flatMap fun _ => ["attr", "slog"]
  | .loggerType => ["slog"]
  | .method _ level style context =>
    (if context then ["context"] else []) ++ (if style = .attr then ["slog"] else []) ++ ["l"] ++
    (if context then [] else ["context"]) ++ level.qualifiers
  | .log style =>
    ["context", "slog"] ++ (if style = .attr then ["slog"] else []) ++
      ["l", "runtime", "slog", "time", "r", "l"]
  | _ => []

/-- The names in the section are identifiers, and the type of an attribute is one. -/
def Worded : Section → Prop
  | .package name => isIdentifier name = true
  | .attribute function _ type => isIdentifier function = true ∧ isTypeText type = true
  | .method name level _ _ => isIdentifier name = true ∧ isIdentifier level.constant = true
  | part => part.Named

end Section

/-! ## Lines in parts -/

theorem toList_ended_line (line : String) (rest : List String) :
    (ended (line :: rest)).toList = (line ++ "\n").toList ++ (ended rest).toList := by
  rw [toList_ended_cons, String.toList_append, List.append_assoc]
  rfl

theorem toList_levelConstant_line (entry : String × Severity) :
    ("const " ++ entry.1 ++ " = slog.Level(" ++ entry.2.text ++ ")" ++ "\n").toList =
      "const ".toList ++ (entry.1.toList ++ [' ']) ++ "= slog.Level(".toList ++
        (entry.2.text.toList ++ [')']) ++ "\n".toList := by simp

theorem toList_stringConstant_line (entry : String × String) :
    ("const " ++ entry.1 ++ " = " ++ literal entry.2 ++ "\n").toList =
      "const ".toList ++ (entry.1.toList ++ [' ']) ++ "= ".toList ++ (literal entry.2).toList ++
        "\n".toList := by
  simp

theorem toList_attribute_opening (function : String) :
    ("func " ++ function ++ "(value ").toList =
      "func ".toList ++ (function.toList ++ ['(']) ++ "value ".toList := by
  simp

theorem toList_attribute_closing (key type : String) :
    (") slog.Attr \x7b\n\treturn slog." ++ slogConstructor type ++ "(" ++ literal key ++
      ", value)\n\x7d\n").toList =
      ") slog.Attr \x7b\n\treturn ".toList ++
        ("slog".toList ++ '.' :: (slogConstructor type).toList ++ ['(']) ++
        (literal key).toList ++ ", value)\n\x7d\n".toList := by simp

theorem toList_return_line (name : String) :
    ("\t\treturn " ++ name ++ ", nil" ++ "\n").toList =
      "\t\treturn ".toList ++ (name.toList ++ [',']) ++ " nil\n".toList := by simp

theorem toList_case_line (name : String) :
    ("\tcase " ++ name ++ ":" ++ "\n").toList =
      "\tcase ".toList ++ (name.toList ++ [':']) ++ "\n".toList := by simp

theorem toList_conventional (constant : String) :
    (LevelReference.conventional constant).text.toList ++ [','] =
      "slog".toList ++ '.' :: constant.toList ++ [','] := by
  simp [LevelReference.text]

theorem toList_method_text_parts (name : String) (level : LevelReference) (style : ArgumentStyle)
    (context : Bool) :
    (Section.method name level style context).text.toList =
      "func (l Logger) ".toList ++ (name.toList ++ ['(']) ++
        (if context then "ctx context.Context, " else "").toList ++ "msg string, ".toList ++
        ((variadicParameter style).toList ++ [')']) ++ " \x7b\n\tl.log(".toList ++
        ((if context then "ctx" else "context.Background()").toList ++ [',']) ++ " ".toList ++
        (level.text.toList ++ [',']) ++ " msg, ".toList ++
          ((variadicArgument style).toList ++ [')']) ++
        "\n\x7d\n".toList := by
  simp [Section.text, Section.lines]

theorem toList_log_line (style : ArgumentStyle) :
    ("func (l Logger) log(ctx context.Context, level slog.Level, msg string, " ++
      variadicParameter style ++ ") \x7b" ++ "\n").toList =
        "func (l Logger) log(ctx context.Context, level slog.Level, msg string, ".toList ++
        ((variadicParameter style).toList ++ [')']) ++ " \x7b\n".toList := by
  simp only [String.toList_append, List.append_assoc]
  rfl

/-! ## Lines -/

variable {names others : List String} {name : String}

def closes (cs : List Char) (names : List String) : Bool :=
  Zone.after .code cs = .code &&
    (bare .code cs).getLast?.any (fun c => !Text.isNameChar c && c != '.') &&
    qualifiersFrom (.word []) (bare .code cs) = names

theorem names_of_closes {cs : List Char} (h : closes cs names = true) : Names [.code cs] names := by
  simp only [closes, Bool.and_eq_true, decide_eq_true_eq] at h
  exact h.2 ▸ names_of_closed h.1.1 h.1.2

theorem names_fixed (text : String) (names : List String) {cs : List Char} (ht : text.toList = cs)
    (h : closes cs names = true) : Names [.code text.toList] names :=
  ht ▸ names_of_closes h

theorem names_end : Names [.code "\n".toList] [] :=
  names_fixed _ [] String.toList_ofList (by decide)

/-- A name amid code, with the sign behind it. -/
theorem names_around {before after : String} (hb : Names [.code before.toList] names) (c : Char)
    (h : isIdentifier name = true) (hc : Text.isNameChar c = false ∧ c ∉ '.' :: openers)
    (ha : Names [.code after.toList] others) :
    Names [.code (before.toList ++ (name.toList ++ [c]) ++ after.toList)] (names ++ others) := by
  have hname := (hb.code (names_identifier c h hc)).code ha
  rwa [List.append_nil] at hname

/-- The characters of fixed lines. -/
theorem toList_ended_ofList (cs : List Char) (more : List String) :
    (ended (String.ofList cs :: more)).toList = cs ++ '\n' :: (ended more).toList := by
  rw [toList_ended_cons, String.toList_ofList]

theorem names_ended_cons {line : String} {rest : List String}
    (hl : Names [.code (line ++ "\n").toList] names)
    (hr : Names [.code (ended rest).toList] others) :
    Names [.code (ended (line :: rest)).toList] (names ++ others) := by
  rw [toList_ended_line]
  exact hl.code hr

theorem names_ended_append {lines rest : List String}
    (hl : Names [.code (ended lines).toList] names)
    (hr : Names [.code (ended rest).toList] others) :
    Names [.code (ended (lines ++ rest)).toList] (names ++ others) := by
  rw [ended_append, String.toList_append]
  exact hl.code hr

theorem names_ended_flatMap {α : Type} {f : α → List String} {g : α → List String} {xs : List α}
    (h : ∀ x ∈ xs, Names [.code (ended (f x)).toList] (g x)) :
    Names [.code (ended (xs.flatMap f)).toList] (xs.flatMap g) := by
  induction xs with
  | nil => exact names_code_nil
  | cons x xs ih =>
    obtain ⟨hx, hxs⟩ := List.forall_mem_cons.1 h
    exact names_ended_append hx (ih hxs)

theorem names_ended_map {α : Type} {f : α → String} {names : List String} {xs : List α}
    (h : ∀ x ∈ xs, Names [.code (f x ++ "\n").toList] names) :
    Names [.code (ended (xs.map f)).toList] (xs.flatMap fun _ => names) := by
  rw [List.map_eq_flatMap]
  refine names_ended_flatMap fun x hx => ?_
  have hone : ended [f x] = f x ++ "\n" := by simp [ended]
  rw [hone]
  exact h x hx

/-! ## Sections -/

theorem names_package (h : isIdentifier name = true) :
    Names [.code (Section.package name).text.toList] [] := by
  have ht : (Section.package name).text.toList = "package ".toList ++ (name.toList ++ ['\n']) := by
    simp [Section.text, Section.lines]
  rw [ht]
  exact (names_fixed "package " [] String.toList_ofList (by decide)).code
    (names_identifier '\n' h (by decide))

theorem names_imports (paths : List String) :
    Names [.code (Section.imports paths).text.toList] [] := by
  have h : Names [.code (Section.imports paths).text.toList] (paths.flatMap fun _ => []) := by
    refine names_ended_map fun path _ => ?_
    rw [String.toList_append, String.toList_append]
    exact ((names_fixed "import " [] String.toList_ofList (by decide)).code
      (names_literal path)).code names_end
  rwa [flatMap_nil] at h

theorem quiet_severity (severity : Severity) : ∀ c ∈ severity.text.toList, c ∉ '.' :: openers := by
  have hall : ('.' :: openers).all (fun d => !d.isDigit && d != '-') = true := by decide
  intro c hc hl
  have hd := List.all_eq_true.1 hall c hl
  simp only [Bool.and_eq_true, Bool.not_eq_true', bne_iff_ne] at hd
  exact severity.not_mem_text hd.1 hd.2 hc

theorem names_severity (severity : Severity) : Names [.code (severity.text.toList ++ [')'])] [] :=
  names_quiet ')' (quiet_severity severity) (by decide)

theorem names_levelConstants {levels : List (String × Severity)}
    (h : ∀ entry ∈ levels, isIdentifier entry.1 = true) :
    Names [.code (Section.levelConstants levels).text.toList] (levels.map fun _ => "slog") := by
  rw [List.map_eq_flatMap]
  refine names_ended_map fun entry hentry => ?_
  rw [toList_levelConstant_line]
  exact ((names_around (names_fixed "const " [] String.toList_ofList (by decide)) ' '
    (h entry hentry) (by decide)
    (names_fixed "= slog.Level(" ["slog"] String.toList_ofList (by decide))).code
      (names_severity entry.2)).code
    names_end

theorem names_stringConstants {constants : List (String × String)}
    (h : ∀ entry ∈ constants, isIdentifier entry.1 = true) :
    Names [.code (Section.stringConstants constants).text.toList] [] := by
  have hn : Names [.code (Section.stringConstants constants).text.toList]
      (constants.flatMap fun _ => []) := by
    refine names_ended_map fun entry hentry => ?_
    rw [toList_stringConstant_line]
    exact ((names_around (names_fixed "const " [] String.toList_ofList (by decide)) ' '
      (h entry hentry) (by decide)
      (names_fixed "= " [] String.toList_ofList (by decide))).code (names_literal entry.2)).code
        names_end
  rwa [flatMap_nil] at hn

theorem isIdentifier_slogConstructor (type : String) :
    isIdentifier (slogConstructor type) = true := by
  have hall : ∀ constructor ∈ typedConstructors, isIdentifier constructor = true := by decide
  rw [slogConstructor]
  cases hf : typedConstructors.find? _ with
  | none => decide
  | some found => exact hall found (List.mem_of_find?_eq_some hf)

theorem names_attribute {function type : String} (key : String) (hf : isIdentifier function = true)
    (ht : isTypeText type = true) :
    Names (Section.attribute function key type).pieces ["slog", "slog"] := by
  have hfirst : Names [.code ("func " ++ function ++ "(value ").toList] [] := by
    rw [toList_attribute_opening]
    exact names_around (names_fixed "func " [] String.toList_ofList (by decide)) '(' hf (by decide)
      (names_fixed "value " [] String.toList_ofList (by decide))
  have hlast : Names
      [.code (") slog.Attr \x7b\n\treturn slog." ++ slogConstructor type ++ "(" ++ literal key ++
      ", value)\n\x7d\n").toList] ["slog", "slog"] := by
    rw [toList_attribute_closing]
    exact (((names_fixed ") slog.Attr \x7b\n\treturn " ["slog"] String.toList_ofList
      (by decide)).code
      (names_qualified '(' (by decide) (isIdentifier_slogConstructor type) (by decide))).code
        (names_literal key)).code
      (names_fixed ", value)\n\x7d\n" [] String.toList_ofList (by decide))
  exact (hfirst.append (names_type ht)).append hlast

theorem names_parseLevel {cases : List (String × String)}
    (h : ∀ entry ∈ cases, isIdentifier entry.2 = true) :
    Names [.code (Section.parseLevel cases).text.toList] ["slog", "strings", "fmt"] := by
  have hcases : Names [.code (ended (cases.flatMap fun entry =>
      ["\tcase " ++ literal entry.1 ++ ":", "\t\treturn " ++ entry.2 ++ ", nil"])).toList]
      (cases.flatMap fun _ => []) := by
    refine names_ended_flatMap fun entry hentry => ?_
    have hlabel : Names [.code ("\tcase " ++ literal entry.1 ++ ":" ++ "\n").toList] [] := by
      rw [String.toList_append, String.toList_append, String.toList_append, List.append_assoc]
      exact ((names_fixed "\tcase " [] String.toList_ofList (by decide)).code
        (names_literal entry.1)).code
        (names_fixed ":\n" [] String.toList_ofList (by decide))
    have hreturn : Names [.code ("\t\treturn " ++ entry.2 ++ ", nil" ++ "\n").toList] [] := by
      rw [toList_return_line]
      exact names_around (names_fixed "\t\treturn " [] String.toList_ofList (by decide)) ','
        (h entry hentry)
        (by decide) (names_fixed " nil\n" [] String.toList_ofList (by decide))
    exact names_ended_cons hlabel (names_ended_cons hreturn names_code_nil)
  have hfirst : Names [.code (ended
      ["func ParseLevel(s string) (slog.Level, error) \x7b",
        "\tswitch strings.ToUpper(s) \x7b"]).toList]
      ["slog", "strings"] := by
    repeat rw [toList_ended_ofList]
    exact names_of_closes (by decide)
  have hlast : Names [.code (ended
      ["\tdefault:",
        "\t\treturn 0, fmt.Errorf(\"slog: level string %q: unknown name\", s)", "\t\x7d",
        "\x7d"]).toList] ["fmt"] := by
    repeat rw [toList_ended_ofList]
    exact names_of_closes (by decide)
  rw [flatMap_nil] at hcases
  exact names_ended_append (names_ended_append hfirst hcases) hlast

theorem names_replaceAttr {cases : List (String × String)}
    (h : ∀ entry ∈ cases, isIdentifier entry.1 = true) :
    Names [.code (Section.replaceAttr cases).text.toList]
      (Section.replaceAttr cases).qualifiers := by
  have hcases : Names [.code (ended (cases.flatMap fun entry =>
      ["\tcase " ++ entry.1 ++ ":",
        "\t\tattr.Value = slog.StringValue(" ++ literal entry.2 ++ ")"])).toList]
      (cases.flatMap fun _ => ["attr", "slog"]) := by
    refine names_ended_flatMap fun entry hentry => ?_
    have hconstant : Names [.code ("\tcase " ++ entry.1 ++ ":" ++ "\n").toList] [] := by
      rw [toList_case_line]
      exact names_around (names_fixed "\tcase " [] String.toList_ofList (by decide)) ':'
        (h entry hentry) (by decide)
        names_end
    have hvalue : Names
        [.code ("\t\tattr.Value = slog.StringValue(" ++ literal entry.2 ++ ")" ++ "\n").toList]
        ["attr", "slog"] := by
      rw [String.toList_append, String.toList_append, String.toList_append, List.append_assoc]
      exact ((names_fixed "\t\tattr.Value = slog.StringValue(" ["attr", "slog"] String.toList_ofList
        (by decide)).code
        (names_literal entry.2)).code (names_fixed ")\n" [] String.toList_ofList (by decide))
    exact names_ended_cons hconstant (names_ended_cons hvalue names_code_nil)
  have hfirst : Names [.code (ended
      ["func ReplaceAttr(_ []string, attr slog.Attr) slog.Attr \x7b",
        "\tif attr.Key != slog.LevelKey \x7b", "\t\treturn attr", "\t\x7d",
        "\tlevel, ok := attr.Value.Any().(slog.Level)", "\tif !ok \x7b", "\t\treturn attr",
        "\t\x7d", "\tswitch level \x7b"]).toList]
      ["slog", "slog", "attr", "slog", "attr", "slog"] := by
    repeat rw [toList_ended_ofList]
    exact names_of_closes (by decide +kernel)
  have hlast : Names [.code (ended ["\t\x7d", "\treturn attr", "\x7d"]).toList] [] := by
    repeat rw [toList_ended_ofList]
    exact names_of_closes (by decide)
  have hall := names_ended_append (names_ended_append hfirst hcases) hlast
  rwa [List.append_nil] at hall

theorem names_level {level : LevelReference} (h : isIdentifier level.constant = true) :
    Names [.code (level.text.toList ++ [','])] level.qualifiers := by
  cases level with
  | declared constant => exact names_identifier ',' h (by decide)
  | conventional constant =>
    rw [toList_conventional]
    exact names_qualified ',' (by decide) h (by decide)

theorem names_variadicParameter (style : ArgumentStyle) :
    Names [.code ((variadicParameter style).toList ++ [')'])]
      (if style = .attr then ["slog"] else []) := by
  cases style with
  | any =>
    rw [variadicParameter, String.toList_ofList]
    exact names_of_closes (by decide)
  | attr =>
    rw [variadicParameter, String.toList_ofList]
    exact names_of_closes (by decide)

theorem names_method {level : LevelReference} (style : ArgumentStyle) (context : Bool)
    (hn : isIdentifier name = true) (hl : isIdentifier level.constant = true) :
    Names [.code (Section.method name level style context).text.toList]
      (Section.method name level style context).qualifiers := by
  have hparameter : Names [.code (if context then "ctx context.Context, " else "").toList]
      (if context then ["context"] else []) := by
    cases context with
    | false => exact names_code_nil
    | true => exact names_fixed "ctx context.Context, " ["context"] String.toList_ofList (by decide)
  have hargument :
      Names [.code ((if context then "ctx" else "context.Background()").toList ++ [','])]
      (if context then [] else ["context"]) := by
    cases context with
    | false =>
      rw [if_neg Bool.false_ne_true, String.toList_ofList]
      exact names_of_closes (by decide)
    | true =>
      rw [if_pos rfl, String.toList_ofList]
      exact names_of_closes (by decide)
  have hlast : Names [.code ((variadicArgument style).toList ++ [')'])] [] := by
    cases style with
    | any =>
      rw [variadicArgument, String.toList_ofList]
      exact names_of_closes (by decide)
    | attr =>
      rw [variadicArgument, String.toList_ofList]
      exact names_of_closes (by decide)
  have hall := ((((((((((((names_fixed "func (l Logger) " [] String.toList_ofList (by decide)).code
    (names_identifier '(' hn (by decide))).code hparameter).code
    (names_fixed "msg string, " [] String.toList_ofList (by decide))).code
      (names_variadicParameter style)).code
    (names_fixed " \x7b\n\tl.log(" ["l"] String.toList_ofList (by decide))).code hargument).code
    (names_fixed " " [] String.toList_ofList (by decide))).code (names_level hl)).code
    (names_fixed " msg, " [] String.toList_ofList (by decide))).code hlast)).code
    (names_fixed "\n\x7d\n" [] String.toList_ofList (by decide))
  rw [toList_method_text_parts]
  simpa [Section.qualifiers] using hall

theorem names_log (style : ArgumentStyle) :
    Names [.code (Section.log style).text.toList] (Section.log style).qualifiers := by
  have hfirst :
      Names [.code ("func (l Logger) log(ctx context.Context, level slog.Level, msg string, " ++
      variadicParameter style ++ ") \x7b" ++ "\n").toList]
      (["context", "slog"] ++ if style = .attr then ["slog"] else []) := by
    have hn :=
      ((names_fixed "func (l Logger) log(ctx context.Context, level slog.Level, msg string, "
      ["context", "slog"] String.toList_ofList (by decide)).code
        (names_variadicParameter style)).code
      (names_fixed " \x7b\n" [] String.toList_ofList (by decide))
    rwa [List.append_nil, ← toList_log_line] at hn
  have henabled : Names [.code (ended
      ["\tif !l.Logger.Enabled(ctx, level) \x7b", "\t\treturn", "\t\x7d", "",
        "\tvar pcs [1]uintptr"]).toList]
      ["l"] := by
    repeat rw [toList_ended_ofList]
    exact names_of_closes (by decide)
  have hcaller : Names [.code (ended
      ["\truntime.Callers(3, pcs[:]) // skip [runtime.Callers, l.log, l.<Level>]", "",
        "\tr := slog.NewRecord(time.Now(), level, msg, pcs[0])"]).toList]
          ["runtime", "slog", "time"] := by
    repeat rw [toList_ended_ofList]
    exact names_of_closes (by decide +kernel)
  have hrecord : Names [.code ("\t" ++ addToRecord style ++ "\n").toList] ["r"] := by
    rw [String.toList_append, String.toList_append]
    have hadd : Names [.code (addToRecord style).toList] ["r"] := by
      cases style with
      | any => exact names_fixed "r.Add(args...)" ["r"] String.toList_ofList (by decide)
      | attr => exact names_fixed "r.AddAttrs(attrs...)" ["r"] String.toList_ofList (by decide)
    exact ((names_fixed "\t" [] String.toList_ofList (by decide)).code hadd).code names_end
  have hlast :
      Names [.code (ended ["\t_ = l.Logger.Handler().Handle(ctx, r)", "\x7d"]).toList] ["l"] := by
    repeat rw [toList_ended_ofList]
    exact names_of_closes (by decide)
  have hall := names_ended_cons hfirst (names_ended_append henabled
    (names_ended_append hcaller (names_ended_cons hrecord hlast)))
  have hq : (Section.log style).qualifiers =
      ["context", "slog"] ++ (if style = .attr then ["slog"] else []) ++
      (["l"] ++ (["runtime", "slog", "time"] ++ (["r"] ++ ["l"]))) := by simp [Section.qualifiers]
  rw [hq]
  exact hall

theorem names_pieces {part : Section} (h : part.Worded) : Names part.pieces part.qualifiers := by
  cases part with
  | header =>
    exact names_fixed "// Code generated by sloggen. DO NOT EDIT.\n"
      [] String.toList_ofList (by decide)
  | package name => exact names_package h
  | imports paths => exact names_imports paths
  | levelConstants levels => exact names_levelConstants h.2
  | stringConstants constants => exact names_stringConstants h
  | «attribute» function key type => exact names_attribute key h.1 h.2
  | parseLevel cases => exact names_parseLevel h
  | replaceAttr cases => exact names_replaceAttr h
  | loggerType =>
    exact names_fixed "type Logger struct\x7b Logger *slog.Logger \x7d\n"
      ["slog"] String.toList_ofList
      (by decide)
  | method name level style context => exact names_method style context h.1 h.2
  | log style => exact names_log style

end SlogHelpers.Source
