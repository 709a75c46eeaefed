import SlogHelpers.Proofs.Source.Delimited
import SlogHelpers.Proofs.Source.LoggerMethods
import SlogHelpers.Proofs.Source.TypeInContext

/-!
The text of each section tells the section, as long as nothing follows it or a further line break.
It tells the kind of the section by how it starts, and then, line by line, what the section holds.
-/
namespace SlogHelpers.Source

/-! ## Lines -/

theorem toList_ended_map {α : Type} (f : α → String) (xs : List α) :
    (ended (xs.map f)).toList = xs.flatMap fun x => (f x).toList ++ ['\n'] := by
  induction xs with
  | nil => rfl
  | cons x xs ih =>
    rw [List.map_cons, toList_ended_cons, ih, List.flatMap_cons, List.append_assoc,
      List.singleton_append]

theorem toList_ended_flatMap {α : Type} (f : α → List String) (xs : List α) :
    (ended (xs.flatMap f)).toList = xs.flatMap fun x => (ended (f x)).toList := by
  induction xs with
  | nil => rfl
  | cons x xs ih =>
    rw [List.flatMap_cons, ended_append, String.toList_append, ih, List.flatMap_cons]

theorem toList_text_of_lines {part : Section} {line : String} {more : List String}
    (h : part.lines = line :: more) :
    part.text.toList = line.toList ++ '\n' :: (ended more).toList := by
  rw [← toList_ended_cons, ← h]
  rfl

theorem identifier_append_inj {name other : String} {c : Char} {more more' : List Char}
    (hn : isIdentifier name = true) (ho : isIdentifier other = true)
    (hc : Text.isNameChar c = false)
    (h : name.toList ++ c :: more = other.toList ++ c :: more') : name = other ∧ more = more' := by
  obtain ⟨hname, hmore⟩ :=
    identifier_delimited hn ho (beginsIn_cons hc more) (beginsIn_cons hc more') h
  exact ⟨hname, (List.cons.inj hmore).2⟩

theorem literal_append_inj {s t : String} {more more' : List Char}
    (h : (literal s).toList ++ more = (literal t).toList ++ more') : s = t ∧ more = more' :=
  literal_delimited trivial trivial (beginsIn_true more) (beginsIn_true more') h

theorem importLine_delimited :
    Delimited (fun _ => True) (fun path => ("import " ++ literal path).toList ++ ['\n'])
      (fun _ => True) := by
  intro path other rest rest' _ _ _ _ h
  simp only [String.toList_append, String.reduceToList, List.append_assoc, List.cons_append,
    List.nil_append, List.cons.injEq, true_and] at h
  obtain ⟨hpath, h⟩ := literal_append_inj h
  exact ⟨hpath, (List.cons.inj h).2⟩

theorem levelLine_delimited :
    Delimited (fun entry : String × Severity => isIdentifier entry.1 = true)
      (fun entry =>
        ("const " ++ entry.1 ++ " = slog.Level(" ++ entry.2.text ++ ")").toList ++ ['\n'])
      (fun _ => True) := by
  intro entry other rest rest' hn ho _ _ h
  simp only [String.toList_append, String.reduceToList, List.append_assoc, List.cons_append,
    List.nil_append, List.cons.injEq, true_and] at h
  obtain ⟨hname, h⟩ := identifier_append_inj hn ho (by decide) h
  simp only [List.cons.injEq, true_and] at h
  have hclose (severity : Severity) : ')' ∉ severity.text.toList :=
    severity.not_mem_text rfl (by decide)
  obtain ⟨hs, h⟩ := Lists.append_cons_inj (hclose _) (hclose _) h
  have hread := Severity.ofConstant?_text entry.2
  rw [hs, Severity.ofConstant?_text] at hread
  exact ⟨Prod.ext hname (Option.some.inj hread).symm, (List.cons.inj h).2⟩

theorem stringLine_delimited :
    Delimited (fun entry : String × String => isIdentifier entry.1 = true)
      (fun entry => ("const " ++ entry.1 ++ " = " ++ literal entry.2).toList ++ ['\n'])
        (fun _ => True) := by
  intro entry other rest rest' hn ho _ _ h
  simp only [String.toList_append, String.reduceToList, List.append_assoc, List.cons_append,
    List.nil_append, List.cons.injEq, true_and] at h
  obtain ⟨hname, h⟩ := identifier_append_inj hn ho (by decide) h
  simp only [List.cons.injEq, true_and] at h
  obtain ⟨hvalue, h⟩ := literal_append_inj h
  exact ⟨Prod.ext hname hvalue, (List.cons.inj h).2⟩

theorem parseLines_delimited :
    Delimited (fun entry : String × String => isIdentifier entry.2 = true)
      (fun entry =>
        (ended ["\tcase " ++ literal entry.1 ++ ":", "\t\treturn " ++ entry.2 ++ ", nil"]).toList)
      (fun _ => True) := by
  intro entry other rest rest' hc ho _ _ h
  simp only [toList_ended_cons, String.toList_append, String.reduceToList, List.append_assoc,
    List.cons_append, List.nil_append, List.cons.injEq, true_and] at h
  obtain ⟨hlabel, h⟩ := literal_append_inj h
  simp only [List.cons.injEq, true_and] at h
  obtain ⟨hconstant, h⟩ := identifier_append_inj hc ho (by decide) h
  simp only [List.cons.injEq, true_and] at h
  exact ⟨Prod.ext hlabel hconstant, List.append_cancel_left h⟩

theorem replaceLines_delimited :
    Delimited (fun entry : String × String => isIdentifier entry.1 = true)
      (fun entry => (ended ["\tcase " ++ entry.1 ++ ":",
        "\t\tattr.Value = slog.StringValue(" ++ literal entry.2 ++ ")"]).toList)
      (fun _ => True) := by
  intro entry other rest rest' hc ho _ _ h
  simp only [toList_ended_cons, String.toList_append, String.reduceToList, List.append_assoc,
    List.cons_append, List.nil_append, List.cons.injEq, true_and] at h
  obtain ⟨hconstant, h⟩ := identifier_append_inj hc ho (by decide) h
  simp only [List.cons.injEq, true_and] at h
  obtain ⟨hlabel, h⟩ := literal_append_inj h
  simp only [List.cons.injEq, true_and] at h
  exact ⟨Prod.ext hconstant hlabel, List.append_cancel_left h⟩

/-! ## Tables -/

theorem not_prefix_of_beginsIn {ends : Char → Prop} {c : Char} {word rest : List Char}
    (h : BeginsIn ends rest) (hc : ¬ ends c) : ¬ c :: word <+: rest := by
  intro hp
  obtain ⟨more, rfl⟩ := hp
  exact hc (h c rfl)

theorem table_append_inj {things : String × String → Prop} {f : String × String → List String}
    {first last : List String} {cases others : List (String × String)} {rest rest' : List Char}
    (hf : Delimited things (fun entry => (ended (f entry)).toList) (fun _ => True))
    (hw : ∀ entry, ['\t', 'c'] <+: (ended (f entry)).toList)
    (hlast : ∀ rest, ¬ ['\t', 'c'] <+: (ended last).toList ++ rest)
    (hc : ∀ entry ∈ cases, things entry) (ho : ∀ entry ∈ others, things entry)
    (h : (ended (first ++ cases.flatMap f ++ last)).toList ++ rest =
      (ended (first ++ others.flatMap f ++ last)).toList ++ rest') : cases = others ∧
        rest = rest' := by
  simp only [ended_append, String.toList_append, toList_ended_flatMap, List.append_assoc] at h
  obtain ⟨hcases, h⟩ :=
    hf.flatMap hw trivial hc ho (beginsIn_true _) (beginsIn_true _) (hlast rest) (hlast rest')
    (List.append_cancel_left h)
  exact ⟨hcases, List.append_cancel_left h⟩

/-! ## Methods -/

theorem variadicParameter_append_inj {style other : ArgumentStyle} {rest rest' : List Char}
    (h : (variadicParameter style).toList ++ rest = (variadicParameter other).toList ++ rest') :
    style = other ∧ rest = rest' := by
  revert h
  cases style <;> cases other <;> simp [variadicParameter]

/-- What stands between the name of a method and the level it logs at. -/
def callText (style : ArgumentStyle) (context : Bool) : String :=
  "(" ++ (if context then "ctx context.Context, " else "") ++ "msg string, " ++
    variadicParameter style ++
    ") \x7b\n\tl.log(" ++ (if context then "ctx" else "context.Background()") ++ ", "

theorem toList_callText (style : ArgumentStyle) (context : Bool) :
    ∃ more, (callText style context).toList = '(' :: (if context then 'c' else 'm') :: more := by
  cases context with
  | true => simp [callText]
  | false => simp [callText]

theorem callText_append_inj {style other : ArgumentStyle} {context context' : Bool}
    {rest rest' : List Char}
    (h : (callText style context).toList ++ rest = (callText other context').toList ++ rest') :
    style = other ∧ context = context' ∧ rest = rest' := by
  have hcontext : context = context' := by
    obtain ⟨more, hmore⟩ := toList_callText style context
    obtain ⟨more', hmore'⟩ := toList_callText other context'
    rw [hmore, hmore'] at h
    have hhead := (List.cons.inj (List.cons.inj h).2).1
    revert hhead
    cases context <;> cases context' <;> simp
  subst hcontext
  have hstyle : style = other := by
    simp only [callText, String.toList_append, List.append_assoc] at h
    have h := List.append_cancel_left (List.append_cancel_left (List.append_cancel_left h))
    exact (variadicParameter_append_inj h).1
  subst hstyle
  exact ⟨rfl, rfl, List.append_cancel_left h⟩

theorem toList_method_text (name : String) (level : LevelReference) (style : ArgumentStyle)
    (context : Bool) :
    (Section.method name level style context).text.toList =
      "func (l Logger) ".toList ++ (name.toList ++
      ((callText style context).toList ++ (level.text.toList ++ ',' ::
        (" msg, ".toList ++ ((variadicArgument style).toList ++ ")\n\x7d\n".toList))))) := by
  simp [Section.text, Section.lines, callText]

theorem levelText_append_inj {level other : LevelReference} {rest rest' : List Char}
    (hl : isIdentifier level.constant = true) (ho : isIdentifier other.constant = true)
    (h : level.text.toList ++ ',' :: rest = other.text.toList ++ ',' :: rest') :
    level = other ∧ rest = rest' := by
  obtain ⟨htext, hrest⟩ :=
    Lists.append_cons_inj (not_mem_levelText hl rfl (by decide))
      (not_mem_levelText ho rfl (by decide)) h
  have hread := reference?_text hl
  rw [htext, reference?_text ho] at hread
  exact ⟨(Option.some.inj hread).symm, hrest⟩

theorem method_text_append_inj {name other : String} {level level' : LevelReference}
    {style style' : ArgumentStyle} {context context' : Bool} {rest rest' : List Char}
    (hn : isIdentifier name = true) (ho : isIdentifier other = true)
    (hl : isIdentifier level.constant = true) (hl' : isIdentifier level'.constant = true)
    (h : (Section.method name level style context).text.toList ++ rest =
      (Section.method other level' style' context').text.toList ++ rest') :
    Section.method name level style context = .method other level' style' context' ∧
      rest = rest' := by
  have hopen (style : ArgumentStyle) (context : Bool) (more : List Char) :
      BeginsIn (Text.isNameChar · = false) ((callText style context).toList ++ more) := by
    obtain ⟨inner, hinner⟩ := toList_callText style context
    rw [hinner]
    exact beginsIn_cons (by decide) _
  simp only [toList_method_text, List.append_assoc, List.cons_append] at h
  obtain ⟨hname, hcall⟩ :=
    identifier_delimited hn ho (hopen _ _ _) (hopen _ _ _) (List.append_cancel_left h)
  obtain ⟨hstyle, hcontext, hlog⟩ := callText_append_inj hcall
  obtain ⟨hlevel, hlast⟩ := levelText_append_inj hl hl' hlog
  subst hname hstyle hcontext hlevel
  exact ⟨rfl, List.append_cancel_left (List.append_cancel_left (List.append_cancel_left hlast))⟩

theorem toList_log_text (style : ArgumentStyle) : (Section.log style).text.toList =
    "func (l Logger) log(ctx context.Context, level slog.Level, msg string, ".toList ++
      ((variadicParameter style).toList ++
        (") \x7b".toList ++ '\n' :: (ended (Section.log style).lines.tail).toList)) := by
  rw [toList_text_of_lines rfl, String.toList_append, String.toList_append, List.append_assoc,
    List.append_assoc]
  rfl

theorem log_text_append_inj {style other : ArgumentStyle} {rest rest' : List Char}
    (h : (Section.log style).text.toList ++ rest = (Section.log other).text.toList ++ rest') :
    style = other ∧ rest = rest' := by
  have hstyle : style = other := by
    simp only [toList_log_text, List.append_assoc] at h
    exact (variadicParameter_append_inj (List.append_cancel_left h)).1
  subst hstyle
  exact ⟨rfl, List.append_cancel_left h⟩

/-- Only `log` itself has the name of `log`. -/
theorem method_text_ne_log_text {name : String} {level : LevelReference}
    {style other : ArgumentStyle} {context : Bool}
    {rest rest' : List Char} (hn : isIdentifier name = true) (hne : name ≠ "log") :
    (Section.method name level style context).text.toList ++ rest ≠
      (Section.log other).text.toList ++ rest' := by
  intro h
  obtain ⟨inner, hinner⟩ := toList_callText style context
  obtain ⟨more, hmore⟩ : ∃ more,
      (Section.log other).text.toList =
        "func (l Logger) ".toList ++ ("log".toList ++ '(' :: more) := by
    rw [toList_log_text, String.toList_ofList, String.toList_ofList, String.toList_ofList]
    exact ⟨_, rfl⟩
  rw [toList_method_text, hinner, hmore] at h
  simp only [List.append_assoc, List.cons_append] at h
  exact hne (identifier_append_inj hn (by decide) (by decide) (List.append_cancel_left h)).1

/-! ## Functions without a receiver -/

/-- Attributes are made from a `value`, which is what no other function's first parameter is
called. -/
theorem attribute_text_ne {function name key type : String} {other : Section} {c : Char}
    {rest rest' : List Char}
    (hf : isIdentifier function = true) (hn : isIdentifier name = true) (hc : c ≠ 'v')
    (ho : ∃ more, other.text.toList = "func ".toList ++ (name.toList ++ '(' :: c :: more)) :
    (Section.attribute function key type).text.toList ++ rest ≠ other.text.toList ++ rest' := by
  intro h
  obtain ⟨more, hmore⟩ := ho
  simp only [toList_attribute_text, hmore, List.append_assoc, List.cons_append] at h
  have hparameter := (identifier_append_inj hf hn (by decide) (List.append_cancel_left h)).2
  rw [String.toList_ofList] at hparameter
  exact hc (List.cons.inj hparameter).1.symm

theorem toList_parseLevel_text (cases : List (String × String)) : ∃ more,
    (Section.parseLevel cases).text.toList =
      "func ".toList ++ ("ParseLevel".toList ++ '(' :: 's' :: more) := by
  rw [toList_text_of_lines rfl, String.toList_ofList, String.toList_ofList, String.toList_ofList]
  exact ⟨_, rfl⟩

theorem toList_replaceAttr_text (cases : List (String × String)) : ∃ more,
    (Section.replaceAttr cases).text.toList =
      "func ".toList ++ ("ReplaceAttr".toList ++ '(' :: '_' :: more) := by
  rw [toList_text_of_lines rfl, String.toList_ofList, String.toList_ofList, String.toList_ofList]
  exact ⟨_, rfl⟩

theorem parseLevel_text_append_inj {cases others : List (String × String)} {rest rest' : List Char}
    (hc : ∀ entry ∈ cases, isIdentifier entry.2 = true)
    (ho : ∀ entry ∈ others, isIdentifier entry.2 = true)
    (h : (Section.parseLevel cases).text.toList ++ rest =
      (Section.parseLevel others).text.toList ++ rest') :
    cases = others ∧ rest = rest' := by
  refine table_append_inj parseLines_delimited (fun entry => ?_) (fun rest => ?_) hc ho h
  · simp [toList_ended_cons]
  · simp [toList_ended_cons]

theorem replaceAttr_text_append_inj {cases others : List (String × String)} {rest rest' : List Char}
    (hc : ∀ entry ∈ cases, isIdentifier entry.1 = true)
    (ho : ∀ entry ∈ others, isIdentifier entry.1 = true)
    (h : (Section.replaceAttr cases).text.toList ++ rest =
      (Section.replaceAttr others).text.toList ++ rest') :
    cases = others ∧ rest = rest' := by
  refine table_append_inj replaceLines_delimited (fun entry => ?_) (fun rest => ?_) hc ho h
  · simp [toList_ended_cons]
  · simp [toList_ended_cons]

/-! ## Imports and constants -/

/-- Lines in a row, one for each thing, none of them empty. -/
theorem lines_append_inj {α : Type} {things : α → Prop} {f : α → String} (c : Char) {as bs : List α}
    {rest rest' : List Char}
    (hf : Delimited things (fun a => (f a).toList ++ ['\n']) (fun _ => True))
    (hw : ∀ a, [c] <+: (f a).toList ++ ['\n']) (hc : c ≠ '\n') (has : ∀ a ∈ as, things a)
    (hbs : ∀ b ∈ bs, things b) (hr : BeginsIn (· = '\n') rest) (hr' : BeginsIn (· = '\n') rest')
    (h : (ended (as.map f)).toList ++ rest = (ended (bs.map f)).toList ++ rest') :
    as = bs ∧ rest = rest' := by
  rw [toList_ended_map, toList_ended_map] at h
  exact hf.flatMap hw trivial has hbs (beginsIn_true rest) (beginsIn_true rest')
    (not_prefix_of_beginsIn hr hc)
    (not_prefix_of_beginsIn hr' hc) h

/-- The value of a level is no literal. -/
theorem levelConstants_text_ne {levels : List (String × Severity)}
    {constants : List (String × String)}
    {rest rest' : List Char} (hl : (Section.levelConstants levels).Named) (hne : constants ≠ [])
    (hc : (Section.stringConstants constants).Named) :
    (Section.levelConstants levels).text.toList ++ rest ≠
      (Section.stringConstants constants).text.toList ++ rest' := by
  intro h
  obtain ⟨level, levels, rfl⟩ := List.exists_cons_of_ne_nil hl.1
  obtain ⟨constant, constants, rfl⟩ := List.exists_cons_of_ne_nil hne
  rw [toList_text_of_lines rfl, toList_text_of_lines rfl] at h
  simp only [String.toList_append, String.reduceToList, List.append_assoc, List.cons_append,
    List.nil_append, List.cons.injEq, true_and] at h
  have hvalue :=
    (identifier_append_inj (hl.2 _ List.mem_cons_self) (hc _ List.mem_cons_self) (by decide) h).2
  simp [literal] at hvalue

/-! ## Sections -/

/-- What is asked of a section beyond its being named: there is something in it, its types are
accepted, and the names and levels of methods are identifiers that are not those of `log`. -/
def Section.Checked : Section → Prop
  | .package name => isIdentifier name = true
  | .imports paths => paths ≠ []
  | .stringConstants constants => constants ≠ []
  | .attribute _ _ type => isTypeText type = true
  | .method name level _ _ =>
    isIdentifier name = true ∧ name ≠ "log" ∧ isIdentifier level.constant = true
  | _ => True

structure Section.Recoverable (part : Section) : Prop where
  named : part.Named
  checked : part.Checked

theorem lines_ne_nil {part : Section} (h : part.Recoverable) : part.lines ≠ [] := by
  cases part with
  | imports paths => exact fun hn => h.checked (List.map_eq_nil_iff.1 hn)
  | levelConstants levels => exact fun hn => h.named.1 (List.map_eq_nil_iff.1 hn)
  | stringConstants constants => exact fun hn => h.checked (List.map_eq_nil_iff.1 hn)
  | _ => exact List.cons_ne_nil _ _

theorem text_begins {part : Section} (h : part.Recoverable) : part.start <+: part.text.toList := by
  obtain hempty | hp := text_start part
  · obtain ⟨line, more, hlines⟩ := List.exists_cons_of_ne_nil (lines_ne_nil h)
    have ht := toList_text_of_lines hlines
    rw [hempty] at ht
    exact absurd ht.symm (List.append_ne_nil_of_right_ne_nil _ (List.cons_ne_nil _ _))
  · exact hp

theorem start_comparable {part other : Section} {rest rest' : List Char} (hp : part.Recoverable)
    (ho : other.Recoverable) (h : part.text.toList ++ rest = other.text.toList ++ rest') :
    part.start <+: other.start ∨ other.start <+: part.start := by
  have hpart := (text_begins hp).trans (List.prefix_append _ rest)
  have hother := (text_begins ho).trans (List.prefix_append _ rest')
  rw [← h] at hother
  exact List.prefix_or_prefix_of_prefix hpart hother

theorem text_delimited :
    Delimited Section.Recoverable (fun part => part.text.toList) (· = '\n') := by
  intro part other rest rest' hp ho hr hr' h
  have h : part.text.toList ++ rest = other.text.toList ++ rest' := h
  have hstart := start_comparable hp ho h
  have hother {word : List Char} (hw : other.start = word) : word <+: part.text.toList ++ rest := by
    rw [h, ← hw]
    exact (text_begins ho).trans (List.prefix_append _ _)
  have hpart {word : List Char} (hw : part.start = word) : word <+: other.text.toList ++ rest' := by
    rw [← h, ← hw]
    exact (text_begins hp).trans (List.prefix_append _ _)
  cases part with
  | header =>
    cases other with
    | header => exact ⟨rfl, List.append_cancel_left h⟩
    | _ => simp [Section.start] at hstart
  | package name =>
    cases other with
    | package name' =>
      rw [toList_text_of_lines rfl, toList_text_of_lines rfl] at h
      simp only [String.toList_append, List.append_assoc, List.cons_append] at h
      obtain ⟨rfl, hrest⟩ :=
        identifier_append_inj hp.checked ho.checked (by decide) (List.append_cancel_left h)
      exact ⟨rfl, hrest⟩
    | _ => simp [Section.start] at hstart
  | imports paths =>
    cases other with
    | imports paths' =>
      obtain ⟨rfl, hrest⟩ :=
        lines_append_inj 'i' importLine_delimited (fun path => by simp) (by decide)
        (fun _ _ => trivial) (fun _ _ => trivial) hr hr' h
      exact ⟨rfl, hrest⟩
    | _ => simp [Section.start] at hstart
  | levelConstants levels =>
    cases other with
    | levelConstants levels' =>
      obtain ⟨rfl, hrest⟩ :=
        lines_append_inj 'c' levelLine_delimited (fun entry => by simp) (by decide) hp.named.2
        ho.named.2 hr hr' h
      exact ⟨rfl, hrest⟩
    | stringConstants constants =>
      exact absurd h (levelConstants_text_ne hp.named ho.checked ho.named)
    | _ => simp [Section.start] at hstart
  | stringConstants constants =>
    cases other with
    | levelConstants levels =>
      exact absurd h.symm (levelConstants_text_ne ho.named hp.checked hp.named)
    | stringConstants constants' =>
      obtain ⟨rfl, hrest⟩ :=
        lines_append_inj 'c' stringLine_delimited (fun entry => by simp) (by decide) hp.named
        ho.named hr hr' h
      exact ⟨rfl, hrest⟩
    | _ => simp [Section.start] at hstart
  | «attribute» function key type =>
    cases other with
    | «attribute» function' key' type' =>
      obtain ⟨hfunction, htype, h⟩ :=
        attribute_text_append_inj hp.named ho.named hp.checked ho.checked h
      simp only [List.append_assoc] at h
      obtain ⟨hkey, h⟩ := literal_append_inj h
      exact ⟨by rw [hfunction, htype, hkey], List.append_cancel_left h⟩
    | parseLevel cases =>
      exact absurd h
        (attribute_text_ne hp.named (by decide) (by decide) (toList_parseLevel_text cases))
    | replaceAttr cases =>
      exact absurd h
        (attribute_text_ne hp.named (by decide) (by decide) (toList_replaceAttr_text cases))
    | method name level style context =>
      exact absurd (hother rfl) (not_receiver_attribute_text hp.named _)
    | log style => exact absurd (hother rfl) (not_receiver_attribute_text hp.named _)
    | _ => simp [Section.start] at hstart
  | parseLevel cases =>
    cases other with
    | parseLevel cases' =>
      obtain ⟨rfl, hrest⟩ := parseLevel_text_append_inj hp.named ho.named h
      exact ⟨rfl, hrest⟩
    | «attribute» function key type =>
      exact absurd h.symm
        (attribute_text_ne ho.named (by decide) (by decide) (toList_parseLevel_text cases))
    | _ => simp [Section.start] at hstart
  | replaceAttr cases =>
    cases other with
    | replaceAttr cases' =>
      obtain ⟨rfl, hrest⟩ := replaceAttr_text_append_inj hp.named ho.named h
      exact ⟨rfl, hrest⟩
    | «attribute» function key type =>
      exact absurd h.symm
        (attribute_text_ne ho.named (by decide) (by decide) (toList_replaceAttr_text cases))
    | _ => simp [Section.start] at hstart
  | loggerType =>
    cases other with
    | loggerType => exact ⟨rfl, List.append_cancel_left h⟩
    | _ => simp [Section.start] at hstart
  | method name level style context =>
    cases other with
    | method name' level' style' context' =>
      exact method_text_append_inj hp.checked.1 ho.checked.1 hp.checked.2.2 ho.checked.2.2 h
    | «attribute» function key type =>
      exact absurd (hpart rfl) (not_receiver_attribute_text ho.named _)
    | log style' => exact absurd h (method_text_ne_log_text hp.checked.1 hp.checked.2.1)
    | _ => simp [Section.start] at hstart
  | log style =>
    cases other with
    | method name level style' context =>
      exact absurd h.symm (method_text_ne_log_text ho.checked.1 ho.checked.2.1)
    | «attribute» function key type =>
      exact absurd (hpart rfl) (not_receiver_attribute_text ho.named _)
    | log style' =>
      obtain ⟨rfl, hrest⟩ := log_text_append_inj h
      exact ⟨rfl, hrest⟩
    | _ => simp [Section.start] at hstart

end SlogHelpers.Source
