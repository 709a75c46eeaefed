import SlogHelpers.Name
import SlogHelpers.Source.Literal
import SlogHelpers.Vocabulary

/-!
The sections of a generated file: what each holds, which ones a vocabulary calls for, and the text
of each. A file is its sections with an empty line between any two.
-/
namespace SlogHelpers.Source

inductive LevelReference where
  /-- By a constant of the file itself. -/
  | declared (constant : String)
  /-- By a constant of `log/slog`. -/
  | conventional (constant : String)
  deriving DecidableEq, Repr

def LevelReference.text : LevelReference → String
  | .declared constant => constant
  | .conventional constant => "slog." ++ constant

inductive Section where
  | header
  | package (name : String)
  | imports (paths : List String)
  | levelConstants (levels : List (String × Severity))
  | stringConstants (constants : List (String × String))
  /-- The function that makes an attribute, with its key and the type of its value. -/
  | attribute (function key type : String)
  /-- The reader of level names: each label with the constant it stands for. -/
  | parseLevel (cases : List (String × String))
  /-- The writer of level names: each constant with its label. -/
  | replaceAttr (cases : List (String × String))
  | loggerType
  | method (name : String) (level : LevelReference) (style : ArgumentStyle) (context : Bool)
  /-- The method that all others go through. -/
  | log (style : ArgumentStyle)
  deriving DecidableEq

/-- The constructors of `log/slog` whose value has a type of its own. -/
def typedConstructors : List String :=
  ["String", "Int64", "Int", "Uint64", "Float64", "Bool", "Time", "Duration"]

def asciiLower (s : String) : String := s.map Char.toLower

/-- The constructor of `log/slog` for values of the type, whatever the case of its letters; all
types without one of their own go through `Any`. -/
def slogConstructor (type : String) : String :=
  let name :=
    if "time.".toList.isPrefixOf type.toList then String.ofList (type.toList.drop 5) else type
  (typedConstructors.find? fun c => asciiLower c = asciiLower name).getD "Any"

def variadicParameter : ArgumentStyle → String
  | .any => "args ...any"
  | .attr => "attrs ...slog.Attr"

def variadicArgument : ArgumentStyle → String
  | .any => "args..."
  | .attr => "attrs..."

def addToRecord : ArgumentStyle → String
  | .any => "r.Add(args...)"
  | .attr => "r.AddAttrs(attrs...)"

namespace Section

def lines : Section → List String
  | .header => ["// Code generated by sloggen. DO NOT EDIT."]
  | .package name => ["package " ++ name]
  | .imports paths => paths.map fun path => "import " ++ literal path
  | .levelConstants levels =>
    levels.map fun (constant, severity) =>
      "const " ++ constant ++ " = slog.Level(" ++ severity.text ++ ")"
  | .stringConstants constants =>
    constants.map fun (constant, value) => "const " ++ constant ++ " = " ++ literal value
  | .attribute function key type => [
      "func " ++ function ++ "(value " ++ type ++ ") slog.Attr \x7b",
      "\treturn slog." ++ slogConstructor type ++ "(" ++ literal key ++ ", value)",
      "\x7d"]
  | .parseLevel cases =>
    ["func ParseLevel(s string) (slog.Level, error) \x7b", "\tswitch strings.ToUpper(s) \x7b"] ++
    cases.flatMap (fun (label, constant) =>
      ["\tcase " ++ literal label ++ ":", "\t\treturn " ++ constant ++ ", nil"]) ++
    ["\tdefault:",
      "\t\treturn 0, fmt.Errorf(\"slog: level string %q: unknown name\", s)",
      "\t\x7d",
      "\x7d"]
  | .replaceAttr cases =>
    ["func ReplaceAttr(_ []string, attr slog.Attr) slog.Attr \x7b",
      "\tif attr.Key != slog.LevelKey \x7b",
      "\t\treturn attr",
      "\t\x7d",
      "\tlevel, ok := attr.Value.Any().(slog.Level)",
      "\tif !ok \x7b",
      "\t\treturn attr",
      "\t\x7d",
      "\tswitch level \x7b"] ++
    cases.flatMap (fun (constant, label) =>
      ["\tcase " ++ constant ++ ":",
        "\t\tattr.Value = slog.StringValue(" ++ literal label ++ ")"]) ++
    ["\t\x7d", "\treturn attr", "\x7d"]
  | .loggerType => ["type Logger struct\x7b Logger *slog.Logger \x7d"]
  | .method name level style context =>
    let parameter := if context then "ctx context.Context, " else ""
    let argument := if context then "ctx" else "context.Background()"
    ["func (l Logger) " ++ name ++ "(" ++ parameter ++ "msg string, " ++
      variadicParameter style ++ ") \x7b",
      "\tl.log(" ++ argument ++ ", " ++ level.text ++ ", msg, " ++ variadicArgument style ++ ")",
      "\x7d"]
  | .log style => [
      "func (l Logger) log(ctx context.Context, level slog.Level, msg string, " ++
        variadicParameter style ++ ") \x7b",
      "\tif !l.Logger.Enabled(ctx, level) \x7b",
      "\t\treturn",
      "\t\x7d",
      "",
      "\tvar pcs [1]uintptr",
      "\truntime.Callers(3, pcs[:]) // skip [runtime.Callers, l.log, l.<Level>]",
      "",
      "\tr := slog.NewRecord(time.Now(), level, msg, pcs[0])",
      "\t" ++ addToRecord style,
      "\t_ = l.Logger.Handler().Handle(ctx, r)",
      "\x7d"]

def text (part : Section) : String :=
  String.join (part.lines.map (· ++ "\n"))

end Section

def fileText (parts : List Section) : String :=
  String.intercalate "\n" (parts.map Section.text)

/-- The sections of the logger type. Its methods name the levels of the file if there are any, and
those of `log/slog` otherwise. -/
def loggerSections (hasLevels : Bool) (plan : LoggerPlan) : List Section :=
  let refer (name : String) : LevelReference :=
    if hasLevels then .declared (Name.levelConstant name)
    else .conventional (Name.levelConstant name)
  .loggerType ::
    plan.levels.values.map
      (fun name => .method (Name.camelCase name) (refer name) plan.style plan.context) ++
    [.log plan.style]

/-- The sections that a vocabulary calls for, in the order of the file. -/
def sections (v : Vocabulary) : List Section :=
  [.header, .package v.package] ++
  (if v.imports.isEmpty then [] else [.imports v.imports.toList]) ++
  (if v.levels.isEmpty then []
    else [.levelConstants
      (v.levels.toList.map fun (severity, name) => (Name.levelConstant name, severity))]) ++
  (if v.constants.isEmpty then []
    else [.stringConstants (v.constants.toList.map fun name => (Name.camelCase name, name))]) ++
  v.attributes.toList.map (fun (key, type) => .attribute (Name.camelCase key) key type) ++
  (if v.hasCustomLevels then
    [.parseLevel (v.levels.values.map fun name => (Text.upperText name, Name.levelConstant name)),
      .replaceAttr (v.levels.values.map fun name => (Name.levelConstant name, Text.upperText name))]
    else []) ++
  (v.logger.elim [] (loggerSections !v.levels.isEmpty))

end SlogHelpers.Source
