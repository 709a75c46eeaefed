import SlogHelpers.Proofs.Severity
import SlogHelpers.Proofs.Source.Identifier
import SlogHelpers.Proofs.Source.Literal
import SlogHelpers.Proofs.Source.Validity

/-!
The sections that declare and name levels, read from their text: line by line, names as identifiers,
labels as literals and severities as constants. In a valid file each of these readings finds what
its section holds, and finds nothing in any other section.
-/
namespace SlogHelpers.Source

/-! ## Lines -/

def between? {α : Type} [DecidableEq α] (before after xs : List α) : Option (List α) :=
  let middle := (xs.drop before.length).take (xs.length - before.length - after.length)
  if xs = before ++ middle ++ after then some middle else none

theorem between?_eq_some {α : Type} [DecidableEq α] {before after xs middle : List α} :
    between? before after xs = some middle ↔ xs = before ++ middle ++ after := by
  constructor
  · intro h
    rw [between?] at h
    split at h
    · next hx =>
      rw [Option.some.inj h] at hx
      exact hx
    · cases h
  · intro h
    have hm : (xs.drop before.length).take (xs.length - before.length - after.length) = middle := by
      rw [h, List.append_assoc, List.drop_left]
      simp
    rw [between?, hm, if_pos h]

theorem between?_toList (before middle after : String) :
    between? before.toList after.toList (before ++ middle ++ after).toList = some middle.toList :=
  between?_eq_some.2 (by simp)

def ended (lines : List String) : String := String.join (lines.map (· ++ "\n"))

theorem ended_append (lines more : List String) :
    ended (lines ++ more) = ended lines ++ ended more := by
  rw [ended, List.map_append, String.join_append]
  rfl

theorem toList_ended_cons (line : String) (more : List String) :
    (ended (line :: more)).toList = line.toList ++ '\n' :: (ended more).toList := by
  simp [ended]

/-- The lines of a text, all of which are ended. -/
def lines? (cs : List Char) : Option (List (List Char)) :=
  let parts := cs.splitOn '\n'
  if parts.getLast? = some [] then some parts.dropLast else none

theorem splitOn_ended {lines : List String} (h : ∀ line ∈ lines, '\n' ∉ line.toList) :
    (ended lines).toList.splitOn '\n' = lines.map String.toList ++ [[]] := by
  induction lines with
  | nil => rfl
  | cons line rest ih =>
    obtain ⟨hline, hrest⟩ := List.forall_mem_cons.1 h
    rw [toList_ended_cons, List.splitOn_append_cons_self_of_not_mem hline, ih hrest]
    rfl

theorem lines?_ended {lines : List String} (h : ∀ line ∈ lines, '\n' ∉ line.toList) :
    lines? (ended lines).toList = some (lines.map String.toList) := by
  rw [lines?, splitOn_ended h]
  simp

theorem prefix_of_lines? {cs line : List Char} {rest : List (List Char)}
    (h : lines? cs = some (line :: rest)) : line <+: cs := by
  rw [lines?] at h
  split at h
  · next hlast =>
    have hd := Option.some.inj h
    have hp : cs.splitOn '\n' = line :: (rest ++ [[]]) := by
      rw [← List.dropLast_append_getLast? [] hlast, hd]
      rfl
    have hi : ['\n'].intercalate (cs.splitOn '\n') = cs := List.intercalate_splitOn '\n'
    rw [hp] at hi
    rw [← hi, List.intercalate_cons_of_ne_nil (by simp), List.append_assoc]
    exact List.prefix_append _ _
  · cases h

/-! ## Readers -/

def identifier? (cs : List Char) : Option String :=
  if isIdentifierChars cs then some (String.ofList cs) else none

/-- The text of a literal that the characters are. -/
def label? (cs : List Char) : Option String :=
  (Interpreted.text? cs).bind fun found => if found.2 = [] then some found.1 else none

def entries? {α β : Type} (first : List Char → Option α) (second : List Char → Option β) :
    List (List Char) → Option (List (α × β))
  | [] => some []
  | [_] => none
  | l :: m :: rest =>
    (first l).bind fun a => (second m).bind fun b => (entries? first second rest).map fun more =>
      (a, b) :: more

def constantLine? (line : List Char) : Option (String × Severity) :=
  (between? "const ".toList ")".toList line).bind fun middle =>
    (identifier? (middle.takeWhile Text.isNameChar)).bind fun name =>
      (between? " = slog.Level(".toList [] (middle.dropWhile Text.isNameChar)).bind fun digits =>
        (Severity.ofConstant? digits).map fun severity => (name, severity)

def constants? (text : String) : Option (List (String × Severity)) :=
  (lines? text.toList).bind fun lines => if lines = [] then none else lines.mapM constantLine?

/-- The table between the first lines of a section and the last ones. -/
def table? {α β : Type} (first last : List String) (left : List Char → Option α)
    (right : List Char → Option β) (text : String) : Option (List (α × β)) :=
  (between? (ended first).toList (ended last).toList text.toList).bind fun body =>
    (lines? body).bind (entries? left right)

def parseCases? : String → Option (List (String × String)) :=
  table?
    ["func ParseLevel(s string) (slog.Level, error) \x7b", "\tswitch strings.ToUpper(s) \x7b"]
    ["\tdefault:", "\t\treturn 0, fmt.Errorf(\"slog: level string %q: unknown name\", s)",
      "\t\x7d", "\x7d"]
    (fun line => (between? "\tcase ".toList ":".toList line).bind label?)
    (fun line => (between? "\t\treturn ".toList ", nil".toList line).bind identifier?)

def replaceCases? : String → Option (List (String × String)) :=
  table?
    ["func ReplaceAttr(_ []string, attr slog.Attr) slog.Attr \x7b",
      "\tif attr.Key != slog.LevelKey \x7b", "\t\treturn attr", "\t\x7d",
      "\tlevel, ok := attr.Value.Any().(slog.Level)", "\tif !ok \x7b", "\t\treturn attr", "\t\x7d",
      "\tswitch level \x7b"]
    ["\t\x7d", "\treturn attr", "\x7d"]
    (fun line => (between? "\tcase ".toList ":".toList line).bind identifier?)
    (fun line => (between? "\t\tattr.Value = slog.StringValue(".toList ")".toList line).bind label?)

/-! ## Tokens read back -/

variable {s : String}

theorem identifier?_toList (h : isIdentifier s = true) : identifier? s.toList = some s := by
  rw [isIdentifier] at h
  rw [identifier?, if_pos h, String.ofList_toList]

theorem label?_literal : label? (literal s).toList = some s := by
  have h := Interpreted.text?_literal s []
  rw [List.append_nil] at h
  rw [label?, h]
  rfl

theorem constantLine?_text {severity : Severity} (h : isIdentifier s = true) :
    constantLine? ("const " ++ s ++ " = slog.Level(" ++ severity.text ++ ")").toList =
      some (s, severity) := by
  have hs : ∀ c ∈ s.toList, Text.isNameChar c = true := fun c hc => isNameChar_of_mem h hc
  have hblank : Text.isNameChar ' ' = false := by decide
  have ht : ("const " ++ s ++ " = slog.Level(" ++ severity.text ++ ")").toList =
      "const ".toList ++ (s.toList ++ (" = slog.Level(".toList ++ severity.text.toList)) ++
        ")".toList := by simp
  have hw : (s.toList ++ (" = slog.Level(".toList ++ severity.text.toList)).takeWhile
      Text.isNameChar = s.toList := by
    rw [List.takeWhile_append_of_pos hs]
    simp [hblank]
  have hd :
      (s.toList ++ (" = slog.Level(".toList ++ severity.text.toList)).dropWhile Text.isNameChar =
      " = slog.Level(".toList ++ severity.text.toList := by
    rw [List.dropWhile_append_of_pos hs]
    simp [hblank]
  have hv : between? " = slog.Level(".toList [] (" = slog.Level(".toList ++ severity.text.toList) =
      some severity.text.toList := between?_eq_some.2 (by simp)
  rw [constantLine?, ht, between?_eq_some.2 rfl, Option.bind_some, hw, hd, identifier?_toList h, hv]
  simp [Severity.ofConstant?_text]

theorem entries?_flatMap {α β γ : Type} {xs : List γ} {f g : γ → List Char} {a : γ → α} {b : γ → β}
    {left : List Char → Option α} {right : List Char → Option β}
    (hx : ∀ x ∈ xs, left (f x) = some (a x) ∧ right (g x) = some (b x)) :
    entries? left right (xs.flatMap fun x => [f x, g x]) = some (xs.map fun x => (a x, b x)) := by
  induction xs with
  | nil => rfl
  | cons x rest ih =>
    obtain ⟨⟨hf, hg⟩, hrest⟩ := List.forall_mem_cons.1 hx
    rw [List.flatMap_cons, List.cons_append, List.cons_append, List.nil_append, entries?,
      hf, hg, ih hrest]
    rfl

theorem table?_ended {α β γ : Type} {first last : List String} {xs : List γ} {f g : γ → String}
    {a : γ → α} {b : γ → β} {left : List Char → Option α} {right : List Char → Option β}
    (hl : ∀ x ∈ xs, '\n' ∉ (f x).toList ∧ '\n' ∉ (g x).toList)
    (hx : ∀ x ∈ xs, left (f x).toList = some (a x) ∧ right (g x).toList = some (b x)) :
    table? first last left right (ended (first ++ xs.flatMap (fun x => [f x, g x]) ++ last)) =
      some (xs.map fun x => (a x, b x)) := by
  have hbody : ∀ line ∈ xs.flatMap (fun x => [f x, g x]), '\n' ∉ line.toList := by
    intro line hline
    obtain ⟨x, hx, hline⟩ := List.mem_flatMap.1 hline
    obtain rfl | rfl : line = f x ∨ line = g x := by simpa using hline
    · exact (hl x hx).1
    · exact (hl x hx).2
  rw [table?, ended_append, ended_append, between?_toList, Option.bind_some, lines?_ended hbody,
    Option.bind_some, List.map_flatMap]
  exact entries?_flatMap hx

/-! ## Sections read back -/

/-- The names that a section declares or returns are identifiers, and it has something to
declare. -/
def Section.Named : Section → Prop
  | .levelConstants levels => levels ≠ [] ∧ ∀ entry ∈ levels, isIdentifier entry.1 = true
  | .stringConstants constants => ∀ entry ∈ constants, isIdentifier entry.1 = true
  | .attribute function _ _ => isIdentifier function = true
  | .parseLevel cases => ∀ entry ∈ cases, isIdentifier entry.2 = true
  | .replaceAttr cases => ∀ entry ∈ cases, isIdentifier entry.1 = true
  | _ => True

def Section.constants? : Section → Option (List (String × Severity))
  | .levelConstants levels => some levels
  | _ => none

def Section.parseCases? : Section → Option (List (String × String))
  | .parseLevel cases => some cases
  | _ => none

def Section.replaceCases? : Section → Option (List (String × String))
  | .replaceAttr cases => some cases
  | _ => none

theorem newline_not_mem_literal : '\n' ∉ (literal s).toList := by
  intro h
  have hc := Interpreted.isControl_of_mem_literal h
  cases hc

theorem newline_not_mem_identifier (h : isIdentifier s = true) : '\n' ∉ s.toList :=
  not_mem_of_isIdentifier h (by decide)

theorem lines?_text {part : Section} (h : ∀ line ∈ part.lines, '\n' ∉ line.toList) :
    lines? part.text.toList = some (part.lines.map String.toList) :=
  lines?_ended h

theorem constants?_levelConstants {levels : List (String × Severity)} (hne : levels ≠ [])
    (h : ∀ entry ∈ levels, isIdentifier entry.1 = true) :
    constants? (Section.levelConstants levels).text = some levels := by
  have hl : ∀ line ∈ (Section.levelConstants levels).lines, '\n' ∉ line.toList := by
    intro line hline
    obtain ⟨entry, hentry, rfl⟩ := List.mem_map.1 hline
    simp [newline_not_mem_identifier (h entry hentry), entry.2.newline_not_mem_text]
  have hm : ((Section.levelConstants levels).lines.map String.toList).mapM constantLine? =
      some (levels.map id) := by
    rw [Section.lines, List.map_map]
    exact Lists.mapM_map_eq_some fun entry hentry => constantLine?_text (h entry hentry)
  have hn : (Section.levelConstants levels).lines.map String.toList ≠ [] := by
    simpa [Section.lines] using hne
  rw [constants?, lines?_text hl, Option.bind_some, if_neg hn, hm, List.map_id]

theorem parseCases?_parseLevel {cases : List (String × String)}
    (h : ∀ entry ∈ cases, isIdentifier entry.2 = true) :
    parseCases? (Section.parseLevel cases).text = some cases := by
  refine (table?_ended (fun entry hentry => ⟨?_, ?_⟩) fun entry hentry => ⟨?_, ?_⟩).trans
    (congrArg some (List.map_id cases))
  · simp [newline_not_mem_literal]
  · simp [newline_not_mem_identifier (h entry hentry)]
  · rw [between?_toList, Option.bind_some]
    exact label?_literal
  · rw [between?_toList, Option.bind_some]
    exact identifier?_toList (h entry hentry)

theorem replaceCases?_replaceAttr {cases : List (String × String)}
    (h : ∀ entry ∈ cases, isIdentifier entry.1 = true) :
    replaceCases? (Section.replaceAttr cases).text = some cases := by
  refine (table?_ended (fun entry hentry => ⟨?_, ?_⟩) fun entry hentry => ⟨?_, ?_⟩).trans
    (congrArg some (List.map_id cases))
  · simp [newline_not_mem_identifier (h entry hentry)]
  · simp [newline_not_mem_literal]
  · rw [between?_toList, Option.bind_some]
    exact identifier?_toList (h entry hentry)
  · rw [between?_toList, Option.bind_some]
    exact label?_literal

/-! ## Other sections -/

theorem split_of_constants? {text : String} {levels : List (String × Severity)}
    (h : constants? text = some levels) :
    ∃ name rest, text.toList =
      "const ".toList ++ (name ++ ' ' :: ("= slog.Level(".toList ++ rest)) ∧ ' ' ∉ name := by
  obtain ⟨lines, hlines, h⟩ := Option.bind_eq_some_iff.1 h
  cases lines with
  | nil => cases h
  | cons line more =>
    rw [if_neg (List.cons_ne_nil _ _), List.mapM_cons] at h
    obtain ⟨entry, hentry, -⟩ := Option.bind_eq_some_iff.1 h
    obtain ⟨middle, hmiddle, h⟩ := Option.bind_eq_some_iff.1 hentry
    obtain ⟨name, hname, h⟩ := Option.bind_eq_some_iff.1 h
    obtain ⟨digits, hdigits, -⟩ := Option.bind_eq_some_iff.1 h
    obtain ⟨rest, hrest⟩ := prefix_of_lines? hlines
    obtain ⟨word, hword⟩ : ∃ word, word = middle.takeWhile Text.isNameChar := ⟨_, rfl⟩
    have hm : middle = word ++ " = slog.Level(".toList ++ digits := by
      rw [hword, List.append_assoc, ← List.append_nil digits, ← List.append_assoc _ digits,
        ← between?_eq_some.1 hdigits, List.takeWhile_append_dropWhile]
    refine ⟨word, digits ++ ")".toList ++ rest, ?_, fun hb => ?_⟩
    · rw [← hrest, between?_eq_some.1 hmiddle, hm]
      simp
    · rw [hword] at hb
      have hc := List.all_eq_true.1 List.all_takeWhile ' ' hb
      cases hc

theorem prefix_of_table? {α β : Type} {line text : String} {first last : List String}
    {entries : List (α × β)} {left : List Char → Option α} {right : List Char → Option β}
    (h : table? (line :: first) last left right text = some entries) :
    line.toList <+: text.toList := by
  obtain ⟨body, hbody, -⟩ := Option.bind_eq_some_iff.1 h
  rw [between?_eq_some.1 hbody, toList_ended_cons, List.append_assoc, List.append_assoc]
  exact List.prefix_append _ _

def Section.start : Section → List Char
  | .header => ['/']
  | .package _ => ['p']
  | .imports _ => ['i']
  | .levelConstants _ => ['c', 'o', 'n', 's', 't', ' ']
  | .stringConstants _ => ['c', 'o', 'n', 's', 't', ' ']
  | .attribute _ _ _ => ['f', 'u', 'n', 'c', ' ']
  | .parseLevel _ => ['f', 'u', 'n', 'c', ' ', 'P']
  | .replaceAttr _ => ['f', 'u', 'n', 'c', ' ', 'R']
  | .loggerType => ['t']
  | .method _ _ _ _ => ['f', 'u', 'n', 'c', ' ', '(']
  | .log _ => ['f', 'u', 'n', 'c', ' ', '(']

theorem prefix_ended {start : List Char} {line : String} {more : List String}
    (h : start <+: line.toList) :
    start <+: (ended (line :: more)).toList := by
  rw [toList_ended_cons]
  exact h.trans (List.prefix_append _ _)

theorem prefix_append {start : List Char} {s t : String} (h : start <+: s.toList) :
    start <+: (s ++ t).toList := by
  rw [String.toList_append]
  exact h.trans (List.prefix_append _ _)

theorem text_start (part : Section) : part.text = "" ∨ part.start <+: part.text.toList := by
  cases part with
  | header =>
    refine .inr (prefix_ended ?_)
    rw [String.toList_ofList]
    exact ⟨_, rfl⟩
  | package name =>
    refine .inr (prefix_ended (prefix_append ?_))
    rw [String.toList_ofList]
    exact ⟨_, rfl⟩
  | imports paths =>
    cases paths with
    | nil => exact .inl rfl
    | cons path paths =>
      refine .inr (prefix_ended (prefix_append ?_))
      rw [String.toList_ofList]
      exact ⟨_, rfl⟩
  | levelConstants levels =>
    cases levels with
    | nil => exact .inl rfl
    | cons level levels =>
      refine .inr (prefix_ended (prefix_append (prefix_append (prefix_append (prefix_append ?_)))))
      rw [String.toList_ofList]
      exact ⟨_, rfl⟩
  | stringConstants constants =>
    cases constants with
    | nil => exact .inl rfl
    | cons constant constants =>
      refine .inr (prefix_ended (prefix_append (prefix_append (prefix_append ?_))))
      rw [String.toList_ofList]
      exact ⟨_, rfl⟩
  | «attribute» function key type =>
    refine .inr (prefix_ended (prefix_append (prefix_append (prefix_append (prefix_append ?_)))))
    rw [String.toList_ofList]
    exact ⟨_, rfl⟩
  | parseLevel cases =>
    refine .inr (prefix_ended ?_)
    rw [String.toList_ofList]
    exact ⟨_, rfl⟩
  | replaceAttr cases =>
    refine .inr (prefix_ended ?_)
    rw [String.toList_ofList]
    exact ⟨_, rfl⟩
  | loggerType =>
    refine .inr (prefix_ended ?_)
    rw [String.toList_ofList]
    exact ⟨_, rfl⟩
  | method name level style context =>
    refine .inr (prefix_ended ?_)
    iterate 6 refine prefix_append ?_
    rw [String.toList_ofList]
    exact ⟨_, rfl⟩
  | log style =>
    refine .inr (prefix_ended (prefix_append (prefix_append ?_)))
    rw [String.toList_ofList]
    exact ⟨_, rfl⟩

theorem not_prefix_text {part : Section} {word : List Char} (hw : word ≠ [])
    (hs : ¬ part.start <+: word) (hp : ¬ word <+: part.start) : ¬ word <+: part.text.toList := by
  intro h
  obtain hempty | hstart := text_start part
  · rw [hempty] at h
    exact hw (List.prefix_nil.1 h)
  · obtain h | h := List.prefix_or_prefix_of_prefix hstart h
    · exact hs h
    · exact hp h

theorem head?_start {part : Section} {c : Char} (h : part.text.toList.head? = some c) :
    part.start.head? = some c := by
  have hne : part.start ≠ [] := by
    cases part <;> exact List.cons_ne_nil _ _
  obtain ht | ⟨rest, ht⟩ := text_start part
  · rw [ht] at h
    cases h
  · rw [← ht, List.head?_append_of_ne_nil _ hne] at h
    exact h

theorem constants?_text {part : Section} (h : part.Named) :
    constants? part.text = part.constants? := by
  have hnone (hs : part.start.head? ≠ some 'c') : constants? part.text = none := by
    refine Option.eq_none_iff_forall_ne_some.2 fun levels hl => ?_
    obtain ⟨name, rest, ht, -⟩ := split_of_constants? hl
    refine hs (head?_start ?_)
    rw [ht, String.toList_ofList]
    rfl
  cases part with
  | levelConstants levels => exact constants?_levelConstants h.1 h.2
  | stringConstants constants =>
    refine Option.eq_none_iff_forall_ne_some.2 fun levels hs => ?_
    obtain ⟨name, rest, ht, hn⟩ := split_of_constants? hs
    cases constants with
    | nil =>
      rw [String.toList_ofList] at ht
      cases ht
    | cons constant constants =>
      have hc : ' ' ∉ constant.1.toList :=
        not_mem_of_isIdentifier (h constant List.mem_cons_self) (by decide)
      obtain ⟨more, hmore⟩ : ∃ more, (Section.stringConstants (constant :: constants)).text.toList =
          "const ".toList ++ (constant.1.toList ++ ' ' :: '=' :: ' ' :: '"' :: more) :=
        ⟨_, (toList_ended_cons _ _).trans (by simp [literal]; rfl)⟩
      rw [hmore] at ht
      obtain ⟨-, hr⟩ := Lists.append_cons_inj hc hn (List.append_cancel_left ht)
      rw [String.toList_ofList] at hr
      simp at hr
  | _ => exact hnone (by simp [Section.start])

/-- The helpers are the only functions without a receiver whose first parameter is not `value`. -/
theorem helper_of_prefix {part : Section} (h : part.Named) (name : List Char) {after : List Char}
    {d : Char} (hn : '(' ∉ name) (hne : name ≠ []) (hd : d ≠ 'v')
    (hp : ['f', 'u', 'n', 'c', ' '] ++ (name ++ '(' :: d :: after) <+: part.text.toList) :
    (∃ cases, part = .parseLevel cases) ∨ ∃ cases, part = .replaceAttr cases := by
  have ⟨rest, ht⟩ := hp
  have hhead : part.start.head? = some 'f' := head?_start (by rw [← ht]; rfl)
  have hreceiver : ¬ ['f', 'u', 'n', 'c', ' ', '('] <+: ['f', 'u', 'n', 'c', ' '] ++
      (name ++ '(' :: d :: after) := by
    obtain ⟨c, name, rfl⟩ := List.exists_cons_of_ne_nil hne
    intro hr
    simp at hr
    exact hn (hr ▸ List.mem_cons_self)
  have hlong : ¬ ['f', 'u', 'n', 'c', ' '] ++
      (name ++ '(' :: d :: after) <+: ['f', 'u', 'n', 'c', ' ', '('] := by
    intro hl
    have hlen := hl.length_le
    simp at hlen
    omega
  cases part with
  | parseLevel cases => exact .inl ⟨cases, rfl⟩
  | replaceAttr cases => exact .inr ⟨cases, rfl⟩
  | «attribute» function key type =>
    have hf : '(' ∉ function.toList := not_mem_of_isIdentifier h (by decide)
    obtain ⟨more, hmore⟩ : ∃ more, (Section.attribute function key type).text.toList =
        ['f', 'u', 'n', 'c', ' '] ++ (function.toList ++ '(' :: 'v' :: more) :=
      ⟨_, (toList_ended_cons _ _).trans (by simp; rfl)⟩
    rw [hmore, List.append_assoc, List.append_assoc] at ht
    obtain ⟨-, hr⟩ := Lists.append_cons_inj hn hf (List.append_cancel_left ht)
    exact absurd (List.cons.inj hr).1 hd
  | method name level style context => exact absurd hp (not_prefix_text (by simp) hreceiver hlong)
  | log style => exact absurd hp (not_prefix_text (by simp) hreceiver hlong)
  | _ => simp [Section.start] at hhead

theorem parseCases?_text {part : Section} (h : part.Named) :
    parseCases? part.text = part.parseCases? := by
  have hnone (hs : ∀ cases, part ≠ .parseLevel cases) : parseCases? part.text = none := by
    refine Option.eq_none_iff_forall_ne_some.2 fun cases hc => ?_
    have hp := prefix_of_table? hc
    rw [String.toList_ofList] at hp
    obtain ⟨found, rfl⟩ | ⟨found, rfl⟩ :=
      helper_of_prefix h ['P', 'a', 'r', 's', 'e', 'L', 'e', 'v', 'e', 'l'] (by decide) (by decide)
        (by decide) hp
    · exact hs found rfl
    · exact not_prefix_text (by simp) (by simp [Section.start]) (by simp [Section.start]) hp
  cases part with
  | parseLevel cases => exact parseCases?_parseLevel h
  | _ => exact hnone nofun

theorem replaceCases?_text {part : Section} (h : part.Named) :
    replaceCases? part.text = part.replaceCases? := by
  have hnone (hs : ∀ cases, part ≠ .replaceAttr cases) : replaceCases? part.text = none := by
    refine Option.eq_none_iff_forall_ne_some.2 fun cases hc => ?_
    have hp := prefix_of_table? hc
    rw [String.toList_ofList] at hp
    obtain ⟨found, rfl⟩ | ⟨found, rfl⟩ :=
      helper_of_prefix h ['R', 'e', 'p', 'l', 'a', 'c', 'e', 'A', 't', 't', 'r'] (by decide)
        (by decide) (by decide) hp
    · exact not_prefix_text (by simp) (by simp [Section.start]) (by simp [Section.start]) hp
    · exact hs found rfl
  cases part with
  | replaceAttr cases => exact replaceCases?_replaceAttr h
  | _ => exact hnone nofun

/-! ## Files read back -/

variable {v : Vocabulary}

theorem fileText_cons_cons (part next : Section) (parts : List Section) :
    fileText (part :: next :: parts) = part.text ++ "\n" ++ fileText (next :: parts) := by
  rw [fileText, List.map_cons, List.map_cons, String.intercalate_cons_cons]
  rfl

theorem isIdentifier_levelConstant (h : Valid v) {name : String} (hn : name ∈ v.levels.values) :
    isIdentifier (Name.levelConstant name) = true :=
  h.identifiers _ (levelConstant_mem_packageIdentifiers hn)

theorem isIdentifier_constant (h : Valid v) {name : String} (hn : name ∈ v.constants.toList) :
    isIdentifier (Name.camelCase name) = true :=
  h.identifiers _ (constant_mem_packageIdentifiers hn)

theorem isIdentifier_attribute (h : Valid v) {key : String} (hk : key ∈ v.attributes.keys) :
    isIdentifier (Name.camelCase key) = true :=
  h.identifiers _ (attribute_mem_packageIdentifiers hk)

/-- How the methods of a file name the level called `name`. -/
def levelReference (v : Vocabulary) (name : String) : LevelReference :=
  if v.levels.isEmpty then .conventional (Name.levelConstant name)
  else .declared (Name.levelConstant name)

theorem loggerSections_eq (plan : LoggerPlan) :
    loggerSections (!v.levels.isEmpty) plan = .loggerType ::
      plan.levels.values.map (fun name =>
        .method (Name.camelCase name) (levelReference v name) plan.style plan.context) ++
          [.log plan.style] := by
  rw [loggerSections]
  simp only [levelReference]
  cases v.levels.isEmpty with
  | true => rfl
  | false => rfl

inductive CalledFor (v : Vocabulary) : Section → Prop where
  | header : CalledFor v .header
  | package : CalledFor v (.package v.package)
  | imports (h : v.imports.toList ≠ []) : CalledFor v (.imports v.imports.toList)
  | levelConstants (h : v.levels.toList ≠ []) :
    CalledFor v
      (.levelConstants (v.levels.toList.map fun entry => (Name.levelConstant entry.2, entry.1)))
  | stringConstants (h : v.constants.toList ≠ []) :
    CalledFor v (.stringConstants (v.constants.toList.map fun name => (Name.camelCase name, name)))
  | attribute (entry : String × String) (h : entry ∈ v.attributes.toList) :
    CalledFor v (.attribute (Name.camelCase entry.1) entry.1 entry.2)
  | parseLevel (h : v.hasCustomLevels = true) :
    CalledFor v
      (.parseLevel (v.levels.values.map fun name => (Text.upperText name, Name.levelConstant name)))
  | replaceAttr (h : v.hasCustomLevels = true) :
    CalledFor v (.replaceAttr
      (v.levels.values.map fun name => (Name.levelConstant name, Text.upperText name)))
  | loggerType : CalledFor v .loggerType
  | method (plan : LoggerPlan) (name : String) (hp : v.logger = some plan)
    (hn : name ∈ plan.levels.values) :
    CalledFor v (.method (Name.camelCase name) (levelReference v name) plan.style plan.context)
  | log (style : ArgumentStyle) : CalledFor v (.log style)

theorem calledFor_of_mem {part : Section} (hp : part ∈ sections v) : CalledFor v part := by
  simp only [sections, List.mem_append] at hp
  obtain (((((hp | hp) | hp) | hp) | hp) | hp) | hp := hp
  · obtain rfl | rfl : part = .header ∨ part = .package v.package := by simpa using hp
    · exact .header
    · exact .package
  · split at hp
    · cases hp
    · next hne =>
      obtain rfl := List.mem_singleton.1 hp
      exact .imports fun hn => hne (List.isEmpty_iff.2 hn)
  · split at hp
    · cases hp
    · next hne =>
      obtain rfl := List.mem_singleton.1 hp
      exact .levelConstants fun hn => hne (List.isEmpty_iff.2 hn)
  · split at hp
    · cases hp
    · next hne =>
      obtain rfl := List.mem_singleton.1 hp
      exact .stringConstants fun hn => hne (List.isEmpty_iff.2 hn)
  · obtain ⟨entry, he, rfl⟩ := List.mem_map.1 hp
    exact .attribute entry he
  · split at hp
    · next hc =>
      obtain rfl | rfl : part = _ ∨ part = _ := by
        simpa only [List.mem_cons, List.not_mem_nil, or_false] using hp
      · exact .parseLevel hc
      · exact .replaceAttr hc
    · cases hp
  · cases hl : v.logger with
    | none =>
      rw [hl] at hp
      cases hp
    | some plan =>
      rw [hl, Option.elim_some, loggerSections_eq] at hp
      simp only [List.cons_append, List.mem_cons, List.mem_append, List.mem_map, List.not_mem_nil,
        or_false] at hp
      obtain rfl | ⟨name, hn, rfl⟩ | rfl := hp
      · exact .loggerType
      · exact .method plan name hl hn
      · exact .log plan.style

theorem named_of_mem_sections (h : Valid v) {part : Section} (hp : part ∈ sections v) :
    part.Named := by
  cases calledFor_of_mem hp with
  | levelConstants hne =>
    refine ⟨fun hn => hne (List.map_eq_nil_iff.1 hn), List.forall_mem_map.2 fun entry he => ?_⟩
    exact isIdentifier_levelConstant h (List.mem_map_of_mem he)
  | stringConstants => exact List.forall_mem_map.2 fun name hn => isIdentifier_constant h hn
  | «attribute» entry he => exact isIdentifier_attribute h (List.mem_map_of_mem he)
  | parseLevel => exact List.forall_mem_map.2 fun name hn => isIdentifier_levelConstant h hn
  | replaceAttr => exact List.forall_mem_map.2 fun name hn => isIdentifier_levelConstant h hn
  | _ => trivial

theorem filterMap_texts {α : Type} {f : String → Option α} {g : Section → Option α}
    (hfg : ∀ part, Section.Named part → f part.text = g part) (h : Valid v) :
    ((sections v).map Section.text).filterMap f = (sections v).filterMap g := by
  rw [List.filterMap_map]
  exact List.filterMap_congr fun part hp => hfg part (named_of_mem_sections h hp)

theorem isEmpty_levels_of_hasCustomLevels (hc : v.hasCustomLevels = true) :
    v.levels.isEmpty = false := by
  obtain ⟨level, hl, -⟩ := List.any_eq_true.1 hc
  obtain ⟨entry, he, -⟩ := List.mem_map.1 hl
  exact Bool.eq_false_iff.2 fun h => List.ne_nil_of_mem he (List.isEmpty_iff.1 h)

/-- What the sections of a file hold, one after the other. -/
theorem filterMap_sections {α : Type} (g : Section → Option α) :
    (sections v).filterMap g =
      (g .header).toList ++ (g (.package v.package)).toList ++
      (if v.imports.isEmpty then [] else (g (.imports v.imports.toList)).toList) ++
      (if v.levels.isEmpty then []
        else (g (.levelConstants
          (v.levels.toList.map fun entry => (Name.levelConstant entry.2, entry.1)))).toList) ++
      (if v.constants.isEmpty then []
        else (g (.stringConstants
          (v.constants.toList.map fun name => (Name.camelCase name, name)))).toList) ++
      v.attributes.toList.filterMap
        (fun entry => g (.attribute (Name.camelCase entry.1) entry.1 entry.2)) ++
      (if v.hasCustomLevels then
        (g (.parseLevel (v.levels.values.map fun name =>
          (Text.upperText name, Name.levelConstant name)))).toList ++
        (g (.replaceAttr
          (v.levels.values.map fun name => (Name.levelConstant name, Text.upperText name)))).toList
        else []) ++
      v.logger.elim [] (fun plan => (g .loggerType).toList ++
        plan.levels.values.filterMap (fun name =>
          g (.method (Name.camelCase name) (levelReference v name) plan.style plan.context)) ++
        (g (.log plan.style)).toList) := by
  have hone (part : Section) : [part].filterMap g = (g part).toList := by
    cases hp : g part with
    | none => simp [hp]
    | some a => simp [hp]
  have htwo (part other : Section) :
      [part, other].filterMap g = (g part).toList ++ (g other).toList := by
    rw [← List.singleton_append, List.filterMap_append, hone, hone]
  have hlogger : (v.logger.elim [] (loggerSections !v.levels.isEmpty)).filterMap g =
      v.logger.elim [] (fun plan => (g .loggerType).toList ++
        plan.levels.values.filterMap (fun name =>
          g (.method (Name.camelCase name) (levelReference v name) plan.style plan.context)) ++
        (g (.log plan.style)).toList) := by
    cases v.logger with
    | none => rfl
    | some plan =>
      rw [Option.elim_some, Option.elim_some, loggerSections_eq, ← List.singleton_append]
      simp only [List.filterMap_append, List.filterMap_map, hone, Function.comp_def]
  rw [sections]
  simp only [List.filterMap_append, List.filterMap_map, apply_ite (List.filterMap g),
    List.filterMap_nil, hone, htwo, hlogger, Function.comp_def]

end SlogHelpers.Source
