import SlogHelpers.Proofs.Source.Containment
import SlogHelpers.Proofs.Source.LoggerMethods

/-!
Which packages a text names: the words in front of a dot, outside of comments, of literals and of
types that it merely passes on. Every part of a file leaves the reading of its text as it found it,
so the packages that a file names are those that its sections name.
-/
namespace SlogHelpers.Source

/-! ## Literals and comments -/

/-- Where a place of a file lies. -/
inductive Zone where
  | code
  /-- Behind a slash, where a second one begins a comment. -/
  | slash
  | comment
  | raw
  | interpreted (escaped : Bool)
  deriving DecidableEq, Repr

namespace Zone

def next : Zone → Char → Zone
  | .comment, c => if c = '\n' then .code else .comment
  | .raw, c => if c = '\x60' then .code else .raw
  | .interpreted true, _ => .interpreted false
  | .interpreted false, c =>
    if c = '\\' then .interpreted true else if c = '"' then .code else .interpreted false
  | zone, c =>
    if c = '/' then if zone = .slash then .comment else .slash
    else if c = '\x60' then .raw else if c = '"' then .interpreted false else .code

def isCode (zone : Zone) : Bool := zone = .code || zone = .slash

def after (zone : Zone) (cs : List Char) : Zone := cs.foldl next zone

theorem after_append (zone : Zone) (s t : List Char) :
    zone.after (s ++ t) = (zone.after s).after t :=
  List.foldl_append

end Zone

/-- A part of a text: its own code, or a type that it passes on. -/
inductive Piece where
  | code (text : List Char)
  | type (text : List Char)

namespace Piece

def text : Piece → List Char
  | .code text => text
  | .type text => text

def type? : Piece → Option (List Char)
  | .code _ => none
  | .type text => some text

end Piece

/-- Code with a blank for each character of comments and literals. -/
def bare (zone : Zone) : List Char → List Char
  | [] => []
  | c :: rest => (if zone.isCode && (zone.next c).isCode then c else ' ') :: bare (zone.next c) rest

/-- The text of the pieces, with blanks for types as well. -/
def outside (zone : Zone) : List Piece → List Char
  | [] => []
  | .code text :: rest => bare zone text ++ outside (zone.after text) rest
  | .type text :: rest => List.replicate text.length ' ' ++ outside (zone.after text) rest

/-! ## Words in front of dots -/

/-- What stands right in front of a place in code. -/
inductive Front where
  | word (cs : List Char)
  /-- A dot behind that word. -/
  | dot (cs : List Char)
  | dots
  /-- A word behind a dot. -/
  | selected
  deriving DecidableEq, Repr

namespace Front

def next (front : Front) (c : Char) : Front :=
  if Text.isNameChar c then
    match front with
    | .word cs => .word (cs ++ [c])
    | .dots => .word [c]
    | _ => .selected
  else if c = '.' then
    match front with
    | .word cs => .dot cs
    | .selected => .dot []
    | _ => .dots
  else .word []

/-- The word that a letter behind its dot makes a qualifier. -/
def qualifier? : Front → Char → Option String
  | .dot (d :: cs), c => if Text.isLetter c then some (String.ofList (d :: cs)) else none
  | _, _ => none

end Front

def qualifiersFrom (front : Front) : List Char → List String
  | [] => []
  | c :: rest => (front.qualifier? c).toList ++ qualifiersFrom (front.next c) rest

/-- The qualifiers in the code of the pieces: words behind no dot, with a dot and a letter right
behind them. -/
def qualifiers (pieces : List Piece) : List String :=
  qualifiersFrom (.word []) (outside .code pieces)

example : qualifiers [.code "log(time.Now().Unix(), v...) // os.Args".toList] = ["time"] := by
  decide +kernel

/-! ## Parts that leave the reading as they found it -/

variable {s t : List Char} {front : Front} {pieces more : List Piece}
  {names others : List String} {c : Char}

/-- The pieces have these qualifiers, and those of the text behind them do not depend on them. -/
def Names (pieces : List Piece) (names : List String) : Prop :=
  ∀ rest, qualifiers (pieces ++ rest) = names ++ qualifiers rest

theorem Names.eq (h : Names pieces names) : qualifiers pieces = names := by
  have hr := h []
  rwa [List.append_nil, show qualifiers [] = [] from rfl, List.append_nil] at hr

theorem names_nil : Names [] [] := fun _ => rfl

theorem Names.append (h : Names pieces names) (hm : Names more others) :
    Names (pieces ++ more) (names ++ others) := by
  intro rest
  rw [List.append_assoc, h, hm, List.append_assoc]

theorem bare_append (zone : Zone) (s t : List Char) :
    bare zone (s ++ t) = bare zone s ++ bare (zone.after s) t := by
  induction s generalizing zone with
  | nil => rfl
  | cons c s ih =>
    rw [List.cons_append, bare, bare, ih]
    rfl

/-- Code may be cut anywhere. -/
theorem outside_code_append (zone : Zone) (s t : List Char) (rest : List Piece) :
    outside zone (.code (s ++ t) :: rest) = outside zone (.code s :: .code t :: rest) := by
  simp only [outside, bare_append, Zone.after_append, List.append_assoc]

theorem Names.code (hs : Names [.code s] names) (ht : Names [.code t] others) :
    Names [.code (s ++ t)] (names ++ others) := by
  intro rest
  have hcut : qualifiers ([.code (s ++ t)] ++ rest) = qualifiers ([.code s] ++ [.code t] ++ rest) :=
    congrArg (qualifiersFrom (.word [])) (outside_code_append .code s t rest)
  rw [hcut, hs.append ht]

theorem names_code_nil : Names [.code []] [] := fun _ => rfl

theorem Front.next_sign (hn : Text.isNameChar c = false) (hd : c ≠ '.') :
    front.next c = .word [] := by
  simp [next, hn, hd]

theorem Front.next_word (hc : Text.isNameChar c = true) (cs : List Char) :
    Front.next (.word cs) c = .word (cs ++ [c]) := by simp [next, hc]

theorem Front.next_dot (hc : Text.isNameChar c = true) (cs : List Char) :
    Front.next (.dot cs) c = .selected := by simp [next, hc]

theorem Front.next_selected (hc : Text.isNameChar c = true) :
    Front.next .selected c = .selected := by
  simp [next, hc]

theorem qualifiersFrom_append (hn : Text.isNameChar c = false) (hd : c ≠ '.') (s t : List Char) :
    qualifiersFrom front (s ++ c :: t) =
      qualifiersFrom front (s ++ [c]) ++ qualifiersFrom (.word []) t := by
  induction s generalizing front with
  | nil => simp [qualifiersFrom, Front.next_sign hn hd]
  | cons d s ih =>
    rw [List.cons_append, List.cons_append, qualifiersFrom, qualifiersFrom, ih, List.append_assoc]

/-- Code that ends in a character which is no part of a word. -/
theorem names_of_closed (hz : Zone.after .code t = .code)
    (hl : (bare .code t).getLast?.any (fun c => !Text.isNameChar c && c != '.') = true) :
    Names [.code t] (qualifiersFrom (.word []) (bare .code t)) := by
  intro rest
  obtain ⟨c, hc, hcs⟩ := (Option.any_eq_true _ _).1 hl
  obtain ⟨u, hu⟩ := List.getLast?_eq_some_iff.1 hc
  simp only [Bool.and_eq_true, Bool.not_eq_true', bne_iff_ne] at hcs
  simp only [qualifiers, List.cons_append, List.nil_append, outside, hz, hu, List.append_assoc]
  exact qualifiersFrom_append hcs.1 hcs.2 u _

/-- The characters that begin literals and comments. -/
def openers : List Char := ['/', '\x60', '"']

theorem qualifiersFrom_of_not_mem {cs : List Char} (h : '.' ∉ s) :
    qualifiersFrom (.word cs) s = [] := by
  induction s generalizing cs with
  | nil => rfl
  | cons c s ih =>
    have hs : '.' ∉ s := List.not_mem_of_not_mem_cons h
    have hc : c ≠ '.' := (List.ne_of_not_mem_cons h).symm
    obtain ⟨next, hnext⟩ : ∃ next, Front.next (.word cs) c = .word next := by
      by_cases hn : Text.isNameChar c = true <;> simp [Front.next, hn, hc]
    rw [qualifiersFrom, hnext, ih hs]
    rfl

theorem bare_of_not_opener (h : ∀ c ∈ s, c ∉ openers) :
    bare .code s = s ∧ Zone.after .code s = .code := by
  induction s with
  | nil => exact ⟨rfl, rfl⟩
  | cons c s ih =>
    obtain ⟨hc, hs⟩ := List.forall_mem_cons.1 h
    obtain ⟨hb, ha⟩ := ih hs
    have hn : Zone.next .code c = .code := by
      simp only [openers, List.mem_cons, List.not_mem_nil, or_false, not_or] at hc
      simp [Zone.next, hc]
    rw [bare, hn, hb, Zone.after, List.foldl_cons, hn]
    exact ⟨rfl, ha⟩

/-- Code without literals and comments that ends in a sign other than a dot. -/
theorem names_of_not_opener (c : Char) (h : ∀ d ∈ s, d ∉ openers)
    (hc : Text.isNameChar c = false ∧ c ∉ '.' :: openers) :
    Names [.code (s ++ [c])] (qualifiersFrom (.word []) (s ++ [c])) := by
  have hall : ∀ d ∈ s ++ [c], d ∉ openers := by
    simpa [or_imp, forall_and] using ⟨h, List.not_mem_of_not_mem_cons hc.2⟩
  obtain ⟨hb, ha⟩ := bare_of_not_opener hall
  have hn := names_of_closed ha (by rw [hb]; simp [hc.1, List.ne_of_not_mem_cons hc.2])
  rwa [hb] at hn

/-- Words and signs without a dot. -/
theorem names_quiet (c : Char) (h : ∀ d ∈ s, d ∉ '.' :: openers)
    (hc : Text.isNameChar c = false ∧ c ∉ '.' :: openers) : Names [.code (s ++ [c])] [] := by
  have hd : '.' ∉ s ++ [c] := by
    simpa using ⟨fun hd => h _ hd List.mem_cons_self, (List.ne_of_not_mem_cons hc.2).symm⟩
  have hn := names_of_not_opener c (fun d hd => List.not_mem_of_not_mem_cons (h d hd)) hc
  rwa [qualifiersFrom_of_not_mem hd] at hn

theorem quiet_of_isNameChar (h : Text.isNameChar c = true) : c ∉ '.' :: openers := by
  have hall : ('.' :: openers).all (fun d => !Text.isNameChar d) = true := by decide
  intro hc
  have hn := List.all_eq_true.1 hall c hc
  rw [h] at hn
  cases hn

theorem not_opener_of_isNameChar (h : Text.isNameChar c = true) : c ∉ openers :=
  List.not_mem_of_not_mem_cons (quiet_of_isNameChar h)

theorem names_identifier {name : String} (c : Char) (h : isIdentifier name = true)
    (hc : Text.isNameChar c = false ∧ c ∉ '.' :: openers) : Names [.code (name.toList ++ [c])] [] :=
  names_quiet c (fun _ hd => quiet_of_isNameChar (isNameChar_of_mem h hd)) hc

theorem qualifiersFrom_word {cs : List Char} (h : ∀ c ∈ cs, Text.isNameChar c = true)
    (before rest : List Char) :
    qualifiersFrom (.word before) (cs ++ rest) = qualifiersFrom (.word (before ++ cs)) rest := by
  induction cs generalizing before with
  | nil => rw [List.append_nil, List.nil_append]
  | cons c cs ih =>
    obtain ⟨hc, hcs⟩ := List.forall_mem_cons.1 h
    rw [List.cons_append, qualifiersFrom, Front.next_word hc, ih hcs, List.append_assoc]
    rfl

theorem qualifiersFrom_selected {cs : List Char} (h : ∀ c ∈ cs, Text.isNameChar c = true)
    (rest : List Char) :
    qualifiersFrom .selected (cs ++ rest) = qualifiersFrom .selected rest := by
  induction cs with
  | nil => rfl
  | cons c cs ih =>
    obtain ⟨hc, hcs⟩ := List.forall_mem_cons.1 h
    rw [List.cons_append, qualifiersFrom, Front.next_selected hc, ih hcs]
    rfl

theorem qualifiersFrom_dot {word cs : List Char} {d : Char} (hw : word ≠ [])
    (hd : Text.isLetter d = true)
    (hcs : ∀ c ∈ cs, Text.isNameChar c = true) (hc : c ≠ '.') (hn : Text.isNameChar c = false) :
    qualifiersFrom (.word word) ('.' :: d :: cs ++ [c]) = [String.ofList word] := by
  obtain ⟨w, ws, rfl⟩ := List.exists_cons_of_ne_nil hw
  have hdot : Front.next (.word (w :: ws)) '.' = .dot (w :: ws) := rfl
  have hname : Front.next (.dot (w :: ws)) d = .selected :=
    Front.next_dot (by simp [Text.isNameChar, hd]) _
  have hfound : Front.qualifier? (.dot (w :: ws)) d = some (String.ofList (w :: ws)) := by
    rw [Front.qualifier?, if_pos hd]
  rw [List.cons_append, List.cons_append, qualifiersFrom, hdot, qualifiersFrom, hname, hfound,
    qualifiersFrom_selected hcs, qualifiersFrom, Front.next_sign hn hc]
  rfl

theorem toList_ne_nil_of_isIdentifier {name : String} (h : isIdentifier name = true) :
    name.toList ≠ [] := by
  intro he
  rw [isIdentifier, he] at h
  cases h

/-- A dot between two names begins no literal and no comment. -/
theorem not_opener_of_mem_qualified {package name : String} (hp : isIdentifier package = true)
    (hn : isIdentifier name = true) : ∀ d ∈ package.toList ++ '.' :: name.toList, d ∉ openers := by
  have hopener {word : String} (h : isIdentifier word = true) : ∀ d ∈ word.toList, d ∉ openers :=
    fun d hd => not_opener_of_isNameChar (isNameChar_of_mem h hd)
  exact List.forall_mem_append.2 ⟨hopener hp, List.forall_mem_cons.2 ⟨by decide, hopener hn⟩⟩

/-- A name of a package behind the name of the package. -/
theorem names_qualified {package name : String} (c : Char) (hp : isIdentifier package = true)
    (hn : isIdentifier name = true) (hc : Text.isNameChar c = false ∧ c ∉ '.' :: openers) :
    Names [.code (package.toList ++ '.' :: name.toList ++ [c])] [package] := by
  have hpackage : ∀ d ∈ package.toList, Text.isNameChar d = true :=
    fun d hd => isNameChar_of_mem hp hd
  have hname : ∀ d ∈ name.toList, Text.isNameChar d = true := fun d hd => isNameChar_of_mem hn hd
  have hfound :
      qualifiersFrom (.word []) (package.toList ++ '.' :: name.toList ++ [c]) = [package] := by
    obtain ⟨d, cs, hcs⟩ := List.exists_cons_of_ne_nil (toList_ne_nil_of_isIdentifier hn)
    rw [isIdentifier, hcs] at hn
    simp only [isIdentifierChars, Bool.and_eq_true] at hn
    rw [hcs] at hname
    rw [List.append_assoc, qualifiersFrom_word hpackage, hcs, List.nil_append,
      qualifiersFrom_dot (toList_ne_nil_of_isIdentifier hp) hn.1.1 (List.forall_mem_cons.1 hname).2
        (List.ne_of_not_mem_cons hc.2) hc.1,
      String.ofList_toList]
  rw [← hfound]
  exact names_of_not_opener c (not_opener_of_mem_qualified hp hn) hc

/-! ## Literals -/

theorem qualifiersFrom_blanks (n : Nat) (s : List Char) :
    qualifiersFrom (.word []) (List.replicate n ' ' ++ s) = qualifiersFrom (.word []) s := by
  have hnext : Front.next (.word []) ' ' = .word [] := by decide
  induction n with
  | zero => rfl
  | succ n ih =>
    rw [List.replicate_succ, List.cons_append, qualifiersFrom, hnext, ih]
    rfl

/-- Characters of a literal that neither begin an escape nor end it. -/
theorem bare_interpreted (h : ∀ c ∈ s, c ≠ '\\' ∧ c ≠ '"') :
    Zone.after (.interpreted false) s = .interpreted false ∧
      bare (.interpreted false) s = List.replicate s.length ' ' := by
  induction s with
  | nil => exact ⟨rfl, rfl⟩
  | cons c s ih =>
    obtain ⟨hc, hs⟩ := List.forall_mem_cons.1 h
    have hn : Zone.next (.interpreted false) c = .interpreted false := by simp [Zone.next, hc]
    obtain ⟨ha, hb⟩ := ih hs
    rw [Zone.after, List.foldl_cons, hn, bare, hn, hb]
    exact ⟨ha, rfl⟩

theorem not_escape_of_mem_hex (width : Nat) {n : Nat} (h : n < 0xA0) {d : Char}
    (hd : d ∈ (Text.hex width n).toList) :
    d ≠ '\\' ∧ d ≠ '"' := by
  have hall : ((List.range 0xA0).all fun n => (Nat.toDigits 16 n).all fun d => d != '\\' &&
      d != '"') = true := by
    decide +kernel
  rw [Text.hex, String.toList_ofList] at hd
  obtain hd | hd := List.mem_append.1 hd
  · rw [List.eq_of_mem_replicate hd]
    decide
  · simpa using List.all_eq_true.1 (List.all_eq_true.1 hall n (List.mem_range.2 h)) d hd

theorem bare_literalChar (c : Char) :
    Zone.after (.interpreted false) (literalChar c) = .interpreted false ∧
    bare (.interpreted false) (literalChar c) = List.replicate (literalChar c).length ' ' := by
  unfold literalChar
  split
  · exact ⟨rfl, rfl⟩
  · exact ⟨rfl, rfl⟩
  · exact ⟨rfl, rfl⟩
  · exact ⟨rfl, rfl⟩
  · exact ⟨rfl, rfl⟩
  · next hq hs _ _ _ =>
    split
    · next hc =>
      have hlt : c.toNat < 0xA0 := by
        simp only [Text.isControl, Bool.or_eq_true, Bool.and_eq_true, decide_eq_true_eq] at hc
        omega
      obtain ⟨ha, hb⟩ := bare_interpreted fun d hd => not_escape_of_mem_hex 4 hlt hd
      have hz : Zone.after (.interpreted false) ['\\', 'u'] = .interpreted false := rfl
      have hu : bare (.interpreted false) ['\\', 'u'] = List.replicate 2 ' ' := rfl
      generalize (Text.hex 4 c.toNat).toList = digits at ha hb
      have hs : '\\' :: 'u' :: digits = ['\\', 'u'] ++ digits := rfl
      rw [hs, Zone.after_append, bare_append, hz, hu, ha, hb, List.length_append,
        List.replicate_add]
      exact ⟨rfl, rfl⟩
    · exact bare_interpreted (List.forall_mem_singleton.2 ⟨hs, hq⟩)

theorem bare_literalChars (cs : List Char) :
    Zone.after (.interpreted false) (cs.flatMap literalChar) = .interpreted false ∧
      bare (.interpreted false) (cs.flatMap literalChar) =
        List.replicate (cs.flatMap literalChar).length ' ' := by
  induction cs with
  | nil => exact ⟨rfl, rfl⟩
  | cons c cs ih =>
    obtain ⟨ha, hb⟩ := bare_literalChar c
    rw [List.flatMap_cons, Zone.after_append, bare_append, ha, hb, ih.1, ih.2, List.length_append,
      List.replicate_add]
    exact ⟨rfl, rfl⟩

theorem bare_literal (s : String) : Zone.after .code (literal s).toList = .code ∧
    bare .code (literal s).toList = List.replicate (literal s).toList.length ' ' := by
  obtain ⟨ha, hb⟩ := bare_literalChars s.toList
  have hz : Zone.after .code ['"'] = .interpreted false := rfl
  have ht : (literal s).toList = ['"'] ++ (s.toList.flatMap literalChar ++ ['"']) := by
    simp [literal]
  rw [ht, Zone.after_append, Zone.after_append, bare_append, bare_append, hz, ha, hb,
    List.length_append, List.length_append, List.replicate_add, List.replicate_add]
  exact ⟨rfl, rfl⟩

theorem names_literal (s : String) : Names [.code (literal s).toList] [] := by
  intro rest
  obtain ⟨ha, hb⟩ := bare_literal s
  simp only [qualifiers, List.cons_append, List.nil_append, outside, ha, hb, qualifiersFrom_blanks]

/-! ## Types -/

/-- The zone of a place in the text of a type. -/
def Mode.zone : Mode → Zone
  | .plain => .code
  | .raw => .raw
  | .interpreted escaped => .interpreted escaped

theorem zone_next {r : Reading} (h : r.mode = .plain → r.Allows c) :
    (r.next c).mode.zone = r.mode.zone.next c := by
  obtain ⟨opened, mode⟩ := r
  cases mode with
  | raw => by_cases hr : c = '\x60' <;> simp [Reading.next, Mode.zone, Zone.next, hr]
  | interpreted escaped =>
    cases escaped with
    | true => rfl
    | false =>
      by_cases hs : c = '\\' <;> by_cases hq : c = '"' <;>
        simp [Reading.next, Mode.zone, Zone.next, hs, hq]
  | plain =>
    have hslash : c ≠ '/' := by
      rintro rfl
      have hk := (h rfl).known
      revert hk
      decide
    by_cases hr : c = '\x60'
    · simp [Reading.next, Mode.zone, Zone.next, hr]
    · by_cases hq : c = '"'
      · simp [Reading.next, Mode.zone, Zone.next, hq]
      · have hmode : (Reading.next ⟨opened, .plain⟩ c).mode = .plain := by
          simp only [Reading.next, hr, hq, if_false]
          split <;> rfl
        rw [hmode]
        simp [Mode.zone, Zone.next, hslash, hr, hq]

/-- A type ends outside of its literals. -/
theorem after_type {type : String} (h : isTypeText type = true) :
    Zone.after .code type.toList = .code := by
  have hzone : ∀ {r : Reading} {cs : List Char}, r.Passes cs →
      (r.after cs).mode.zone = r.mode.zone.after cs := by
    intro r cs hp
    induction cs generalizing r with
    | nil => rfl
    | cons c cs ih =>
      obtain ⟨hc, hcs⟩ := hp
      have hn := ih hcs
      rw [zone_next hc] at hn
      exact hn
  obtain ⟨hp, ha⟩ := moves_of_isTypeText h
  have hz := hzone hp
  rw [ha] at hz
  exact hz.symm

theorem names_type {type : String} (h : isTypeText type = true) : Names [.type type.toList] [] := by
  intro rest
  simp only [qualifiers, List.cons_append, List.nil_append, outside,
    qualifiersFrom_blanks, after_type h]

end SlogHelpers.Source
