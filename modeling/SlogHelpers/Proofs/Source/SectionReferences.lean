import SlogHelpers.Proofs.Source.Imports
import SlogHelpers.Proofs.Source.References

/-!
The names that each section of a file uses: its parameters and variables, what it imports, what Go
declares, and names that are made from the vocabulary.
-/
namespace SlogHelpers.Source

/-! ## Names of the generated code -/

def predeclared : List String := [
  "any", "bool", "byte", "comparable", "complex64", "complex128", "error", "float32", "float64",
  "int", "int8", "int16", "int32", "int64", "rune", "string", "uint", "uint8", "uint16", "uint32",
  "uint64", "uintptr", "true", "false", "iota", "nil",
  "append", "cap", "clear", "close", "complex", "copy", "delete", "imag", "len", "make", "max",
  "min", "new", "panic", "print", "println", "real", "recover"]

def importedNames : List String := ["slog", "fmt", "strings", "context", "runtime", "time"]

example : standardImports.map packageName = importedNames := by decide +kernel

/-- The parameters and variables of generated functions. -/
def localNames : List String :=
  ["value", "s", "attr", "level", "ok", "l", "ctx", "msg", "args", "attrs", "pcs", "r"]

def privateMethod : String := "log"

def variadicName : ArgumentStyle → String
  | .any => "args"
  | .attr => "attrs"

def methodLocals (style : ArgumentStyle) (context : Bool) : List String :=
  (if context then ["ctx"] else []) ++ ["l", "msg", variadicName style]

/-- What the code of a function with these parameters and variables uses: them, the imports, the
private method and what Go declares. -/
def ownNames (locals : List String) : List String :=
  locals ++ importedNames ++ [privateMethod] ++ predeclared

/-- The name of the file that the reference uses. -/
def LevelReference.made : LevelReference → List String
  | .declared constant => [constant]
  | .conventional _ => []

namespace Section

def locals : Section → List String
  | .attribute _ _ _ => ["value"]
  | .parseLevel _ => ["s"]
  | .replaceAttr _ => ["attr", "level", "ok"]
  | .method _ _ style context => methodLocals style context
  | .log style => ["l", "ctx", "level", "msg", variadicName style, "pcs", "r"]
  | _ => []

/-- What the code of the section may use whatever the vocabulary is. -/
def own (part : Section) : List String := ownNames part.locals

def fixed : Section → List String
  | .parseLevel _ => ["ParseLevel"]
  | .replaceAttr _ => ["ReplaceAttr"]
  | .loggerType => ["Logger"]
  | .method _ _ _ _ => ["Logger"]
  | .log _ => ["Logger"]
  | _ => []

/-- The names that are made from the vocabulary. -/
def made : Section → List String
  | .levelConstants levels => levels.map Prod.fst
  | .stringConstants constants => constants.map Prod.fst
  | .attribute function _ _ => [function]
  | .parseLevel cases => cases.map Prod.snd
  | .replaceAttr cases => cases.map Prod.fst
  | .method name level _ _ => name :: level.made
  | _ => []

end Section

/-! ## Sections -/

variable {fixed made : List String} {name : String}

/-- Digits refer to nothing. -/
theorem refers_severity (severity : Severity) :
    Refers fixed made [.code (severity.text.toList ++ [')'])] := by
  have hdigit : ∀ c ∈ Nat.toDigits 10 severity.toInt.natAbs, c.isDigit = true :=
    fun c hc => Nat.isDigit_of_mem_toDigits (by decide) (by decide) hc
  have hfound : wordsFrom (.word []) (severity.text.toList ++ [')']) =
      [String.ofList (Nat.toDigits 10 severity.toInt.natAbs)] := by
    have hwords := wordsFrom_word_sign (c := ')') Nat.toDigits_ne_nil
      (fun c hc => isNameChar_of_isDigit (hdigit c hc)) (by decide) (by decide)
    rw [Severity.text_toList]
    split
    · exact hwords
    · exact hwords
  refine refers_of_not_opener ')'
    (fun c hc => List.not_mem_of_not_mem_cons (quiet_severity severity c hc)) (by decide)
    fun word hw hr => ?_
  rw [hfound] at hw
  obtain rfl := List.mem_singleton.1 hw
  obtain ⟨d, ds, hds⟩ :=
    List.exists_cons_of_ne_nil (Nat.toDigits_ne_nil (n := severity.toInt.natAbs) (b := 10))
  have hletter := isLetter_of_isDigit (hdigit d (hds ▸ List.mem_cons_self))
  simp [isReference, isIdentifier, isIdentifierChars, hds, hletter] at hr

theorem refers_imports (paths : List String) :
    Refers (ownNames []) made [.code (Section.imports paths).text.toList] := by
  refine refers_ended (List.forall_mem_map.2 fun path _ => ?_)
  rw [String.toList_append, String.toList_append]
  exact ((refers_fixed "import " String.toList_ofList (by decide)).code (refers_literal path)).code
    refers_end

theorem refers_levelConstants {levels : List (String × Severity)}
    (h : ∀ entry ∈ levels, isIdentifier entry.1 = true) :
    Refers (ownNames []) (levels.map Prod.fst)
      [.code (Section.levelConstants levels).text.toList] := by
  refine refers_ended (List.forall_mem_map.2 fun entry he => ?_)
  rw [toList_levelConstant_line]
  exact ((((refers_fixed "const " String.toList_ofList (by decide)).code
    (refers_name ' ' (h entry he) (by decide) (List.mem_map_of_mem he))).code
    (refers_fixed "= slog.Level(" String.toList_ofList (by decide))).code
      (refers_severity entry.2)).code
    refers_end

theorem refers_stringConstants {constants : List (String × String)}
    (h : ∀ entry ∈ constants, isIdentifier entry.1 = true) :
    Refers (ownNames []) (constants.map Prod.fst)
      [.code (Section.stringConstants constants).text.toList] := by
  refine refers_ended (List.forall_mem_map.2 fun entry he => ?_)
  rw [toList_stringConstant_line]
  exact ((((refers_fixed "const " String.toList_ofList (by decide)).code
    (refers_name ' ' (h entry he) (by decide) (List.mem_map_of_mem he))).code
    (refers_fixed "= " String.toList_ofList (by decide))).code (refers_literal entry.2)).code
      refers_end

theorem refers_attribute {function type : String} (key : String) (hf : isIdentifier function = true)
    (ht : isTypeText type = true) :
    Refers (ownNames ["value"]) [function] (Section.attribute function key type).pieces := by
  have hfirst :
      Refers (ownNames ["value"]) [function] [.code ("func " ++ function ++ "(value ").toList] := by
    rw [toList_attribute_opening]
    exact ((refers_fixed "func " String.toList_ofList (by decide)).code
      (refers_name '(' hf (by decide) List.mem_cons_self)).code
      (refers_fixed "value " String.toList_ofList (by decide))
  have hlast : Refers (ownNames ["value"]) [function] [.code (") slog.Attr \x7b\n\treturn slog." ++
      slogConstructor type ++ "(" ++ literal key ++ ", value)\n\x7d\n").toList] := by
    rw [toList_attribute_closing]
    exact (((refers_fixed ") slog.Attr \x7b\n\treturn " String.toList_ofList (by decide)).code
      (refers_qualified '(' (by decide) (isIdentifier_slogConstructor type) (by decide)
        (by decide))).code
      (refers_literal key)).code (refers_fixed ", value)\n\x7d\n" String.toList_ofList (by decide))
  exact (hfirst.append (refers_type ht)).append hlast

theorem refers_parseLevel {cases : List (String × String)}
    (h : ∀ entry ∈ cases, isIdentifier entry.2 = true) :
    Refers ("ParseLevel" :: ownNames ["s"]) (cases.map Prod.snd)
      [.code (Section.parseLevel cases).text.toList] := by
  refine refers_ended_append
    (refers_ended_append ?_ (refers_ended (List.forall_mem_flatMap.2 fun entry he => ?_))) ?_
  · repeat rw [toList_ended_ofList]
    exact refers_of_keepsTo (by decide)
  · refine List.forall_mem_cons.2 ⟨?_, List.forall_mem_singleton.2 ?_⟩
    · rw [String.toList_append, String.toList_append, String.toList_append, List.append_assoc]
      exact ((refers_fixed "\tcase " String.toList_ofList (by decide)).code
        (refers_literal entry.1)).code
        (refers_fixed ":\n" String.toList_ofList (by decide))
    · rw [toList_return_line]
      exact ((refers_fixed "\t\treturn " String.toList_ofList (by decide)).code
        (refers_name ',' (h entry he) (by decide) (List.mem_map_of_mem he))).code
        (refers_fixed " nil\n" String.toList_ofList (by decide))
  · repeat rw [toList_ended_ofList]
    exact refers_of_keepsTo (by decide)

theorem refers_replaceAttr {cases : List (String × String)}
    (h : ∀ entry ∈ cases, isIdentifier entry.1 = true) :
    Refers ("ReplaceAttr" :: ownNames ["attr", "level", "ok"]) (cases.map Prod.fst)
      [.code (Section.replaceAttr cases).text.toList] := by
  refine refers_ended_append
    (refers_ended_append ?_ (refers_ended (List.forall_mem_flatMap.2 fun entry he => ?_))) ?_
  · repeat rw [toList_ended_ofList]
    exact refers_of_keepsTo (by decide +kernel)
  · refine List.forall_mem_cons.2 ⟨?_, List.forall_mem_singleton.2 ?_⟩
    · rw [toList_case_line]
      exact ((refers_fixed "\tcase " String.toList_ofList (by decide)).code
        (refers_name ':' (h entry he) (by decide) (List.mem_map_of_mem he))).code refers_end
    · rw [String.toList_append, String.toList_append, String.toList_append, List.append_assoc]
      exact ((refers_fixed "\t\tattr.Value = slog.StringValue(" String.toList_ofList
        (by decide)).code
        (refers_literal entry.2)).code (refers_fixed ")\n" String.toList_ofList (by decide))
  · repeat rw [toList_ended_ofList]
    exact refers_of_keepsTo (by decide)

theorem refers_level {level : LevelReference} (h : isIdentifier level.constant = true)
    (hm : level.made ⊆ made)
    (hf : "slog" ∈ fixed) : Refers fixed made [.code (level.text.toList ++ [','])] := by
  cases level with
  | declared constant => exact refers_name ',' h (by decide) (hm List.mem_cons_self)
  | conventional constant =>
    rw [toList_conventional]
    exact refers_qualified ',' (by decide) h (by decide) hf

theorem refers_variadicParameter (style : ArgumentStyle)
    (hs : [variadicName style, "any", "slog"] ⊆ fixed) :
    Refers fixed made [.code ((variadicParameter style).toList ++ [')'])] := by
  refine Refers.mono ?_ hs
  cases style with
  | any =>
    rw [variadicParameter, String.toList_ofList]
    exact refers_of_keepsTo (by decide)
  | attr =>
    rw [variadicParameter, String.toList_ofList]
    exact refers_of_keepsTo (by decide)

theorem refers_variadicArgument (style : ArgumentStyle) (hs : [variadicName style] ⊆ fixed) :
    Refers fixed made [.code ((variadicArgument style).toList ++ [')'])] := by
  refine Refers.mono ?_ hs
  cases style with
  | any =>
    rw [variadicArgument, String.toList_ofList]
    exact refers_of_keepsTo (by decide)
  | attr =>
    rw [variadicArgument, String.toList_ofList]
    exact refers_of_keepsTo (by decide)

/-- The names that methods use whatever their level, their style and their context are. -/
def methodWords : List String := ["Logger", "l", "msg", "string", "context"]

theorem methodWords_subset (style : ArgumentStyle) (context : Bool) :
    methodWords ⊆ "Logger" :: ownNames (methodLocals style context) := by
  cases style <;> cases context <;> decide

theorem refers_method {level : LevelReference} (style : ArgumentStyle) (context : Bool)
    (hn : isIdentifier name = true) (hl : isIdentifier level.constant = true) :
    Refers ("Logger" :: ownNames (methodLocals style context)) (name :: level.made)
      [.code (Section.method name level style context).text.toList] := by
  have hfixed (text : String) {cs : List Char} (ht : text.toList = cs)
      (h : keepsTo methodWords cs = true) :
      Refers ("Logger" :: ownNames (methodLocals style context)) (name :: level.made)
        [.code text.toList] :=
    (refers_fixed text ht h).mono (methodWords_subset style context)
  have hparameter : Refers ("Logger" :: ownNames (methodLocals style context)) (name :: level.made)
      [.code (if context then "ctx context.Context, " else "").toList] := by
    cases context with
    | false => exact refers_nil
    | true =>
      have hcontext :
          Refers ["ctx", "context"] (name :: level.made) [.code "ctx context.Context, ".toList] :=
        refers_fixed _ String.toList_ofList (by decide)
      exact hcontext.mono (by simp [ownNames, methodLocals, importedNames])
  have hargument : Refers ("Logger" :: ownNames (methodLocals style context)) (name :: level.made)
      [.code ((if context then "ctx" else "context.Background()").toList ++ [','])] := by
    cases context with
    | false =>
      rw [if_neg Bool.false_ne_true, String.toList_ofList]
      exact (refers_of_keepsTo (by decide)).mono (methodWords_subset style false)
    | true =>
      have hctx : Refers ["ctx"] (name :: level.made) [.code (['c', 't', 'x'] ++ [','])] :=
        refers_of_keepsTo (by decide)
      rw [if_pos rfl, String.toList_ofList]
      exact hctx.mono (by simp [ownNames, methodLocals])
  have hvariadic : Refers ("Logger" :: ownNames (methodLocals style context)) (name :: level.made)
      [.code ((variadicParameter style).toList ++ [')'])] :=
    refers_variadicParameter style (by simp [ownNames, methodLocals, importedNames, predeclared])
  have hlast : Refers ("Logger" :: ownNames (methodLocals style context)) (name :: level.made)
      [.code ((variadicArgument style).toList ++ [')'])] :=
    refers_variadicArgument style (by simp [ownNames, methodLocals])
  have hname : Refers ("Logger" :: ownNames (methodLocals style context)) (name :: level.made)
      [.code (name.toList ++ ['('])] := refers_name '(' hn (by decide) List.mem_cons_self
  have hlevel : Refers ("Logger" :: ownNames (methodLocals style context)) (name :: level.made)
      [.code (level.text.toList ++ [','])] :=
    refers_level hl (List.subset_cons_self name level.made) (by simp [ownNames, importedNames])
  rw [toList_method_text_parts]
  exact (((((((((((hfixed "func (l Logger) " String.toList_ofList (by decide)).code hname).code
    hparameter).code
    (hfixed "msg string, " String.toList_ofList (by decide))).code hvariadic).code
    (hfixed " \x7b\n\tl.log(" String.toList_ofList (by decide))).code hargument).code
    (hfixed " " String.toList_ofList (by decide))).code hlevel).code
    (hfixed " msg, " String.toList_ofList (by decide))).code hlast).code
    (hfixed "\n\x7d\n" String.toList_ofList (by decide))

/-- The names that `log` uses in either style. -/
def logWords : List String :=
  ["Logger", "l", "ctx", "level", "msg", "pcs", "r", "slog", "context", "runtime", "time", "log",
    "string", "uintptr"]

theorem logWords_subset (style : ArgumentStyle) :
    logWords ⊆ "Logger" :: (Section.log style).own := by
  cases style <;> decide

theorem refers_log (style : ArgumentStyle) :
    Refers ("Logger" :: (Section.log style).own) made [.code (Section.log style).text.toList] := by
  have hfirst : Refers ("Logger" :: (Section.log style).own) made
      [.code ("func (l Logger) log(ctx context.Context, level slog.Level, msg string, " ++
        variadicParameter style ++ ") \x7b" ++ "\n").toList] := by
    have hopening : Refers logWords made
        [.code "func (l Logger) log(ctx context.Context, level slog.Level, msg string, ".toList] :=
      refers_fixed _ String.toList_ofList (by decide)
    have hclosing : Refers logWords made [.code " \x7b\n".toList] :=
      refers_fixed _ String.toList_ofList (by decide)
    have hvariadic : Refers ("Logger" :: (Section.log style).own) made
        [.code ((variadicParameter style).toList ++ [')'])] := refers_variadicParameter style
      (by simp [Section.own, Section.locals, ownNames, importedNames, predeclared])
    rw [toList_log_line]
    exact ((hopening.mono (logWords_subset style)).code hvariadic).code
      (hclosing.mono (logWords_subset style))
  have henabled : Refers ("Logger" :: (Section.log style).own) made [.code (ended
      ["\tif !l.Logger.Enabled(ctx, level) \x7b", "\t\treturn", "\t\x7d", "",
        "\tvar pcs [1]uintptr"]).toList] := by
    repeat rw [toList_ended_ofList]
    exact (refers_of_keepsTo (by decide)).mono (logWords_subset style)
  have hcaller : Refers ("Logger" :: (Section.log style).own) made [.code (ended
      ["\truntime.Callers(3, pcs[:]) // skip [runtime.Callers, l.log, l.<Level>]", "",
        "\tr := slog.NewRecord(time.Now(), level, msg, pcs[0])"]).toList] := by
    repeat rw [toList_ended_ofList]
    exact (refers_of_keepsTo (by decide +kernel)).mono (logWords_subset style)
  have hrecord : Refers ("Logger" :: (Section.log style).own) made
      [.code ("\t" ++ addToRecord style ++ "\n").toList] := by
    have hadd : Refers ["r", variadicName style] made
        [.code ("\t" ++ addToRecord style ++ "\n").toList] := by
      rw [String.toList_append, String.toList_append]
      cases style with
      | any =>
        rw [addToRecord, String.toList_ofList, String.toList_ofList, String.toList_ofList]
        exact refers_of_keepsTo (by decide)
      | attr =>
        rw [addToRecord, String.toList_ofList, String.toList_ofList, String.toList_ofList]
        exact refers_of_keepsTo (by decide)
    exact hadd.mono (by simp [Section.own, Section.locals, ownNames])
  have hlast : Refers ("Logger" :: (Section.log style).own) made
      [.code (ended ["\t_ = l.Logger.Handler().Handle(ctx, r)", "\x7d"]).toList] := by
    repeat rw [toList_ended_ofList]
    exact (refers_of_keepsTo (by decide)).mono (logWords_subset style)
  have hall := refers_ended_cons hfirst (refers_ended_append henabled
    (refers_ended_append hcaller (refers_ended_cons hrecord hlast)))
  exact hall

/-- A section uses its own names, those that it declares whatever the vocabulary is, and those that
it makes. -/
theorem refers_pieces {part : Section} (h : part.Worded) (hp : part.package? = none) :
    Refers (part.fixed ++ part.own) part.made part.pieces := by
  cases part with
  | header =>
    exact refers_fixed "// Code generated by sloggen. DO NOT EDIT.\n"
      String.toList_ofList (by decide)
  | package name => cases hp
  | imports paths => exact refers_imports paths
  | levelConstants levels => exact refers_levelConstants h.2
  | stringConstants constants => exact refers_stringConstants h
  | «attribute» function key type => exact refers_attribute key h.1 h.2
  | parseLevel cases => exact refers_parseLevel h
  | replaceAttr cases => exact refers_replaceAttr h
  | loggerType =>
    exact refers_fixed "type Logger struct\x7b Logger *slog.Logger \x7d\n"
      String.toList_ofList (by decide)
  | method name level style context => exact refers_method style context h.1 h.2
  | log style => exact refers_log style

end SlogHelpers.Source
