import SlogHelpers.Proofs.Source.FileQualifiers

/-!
Which names the code of a section uses: identifiers behind no dot, outside of comments, of literals
and of types that it merely passes on. All of them are the section's own or made from the names it
holds.
-/
namespace SlogHelpers.Source

/-- The word that ends in front of the character, unless a dot stands before it. -/
def Front.word? : Front → Char → Option String
  | .word (d :: cs), c => if Text.isNameChar c then none else some (String.ofList (d :: cs))
  | _, _ => none

/-- The words of a text that stand behind no dot. -/
def wordsFrom (front : Front) : List Char → List String
  | [] => (front.word? ' ').toList
  | c :: rest => (front.word? c).toList ++ wordsFrom (front.next c) rest

/-- Numbers and keywords refer to nothing, and neither does the blank identifier. -/
def isReference (word : String) : Bool := isIdentifier word && word != "_"

/-- The names that the code of the pieces uses. -/
def references (pieces : List Piece) : List String :=
  (wordsFrom (.word []) (outside .code pieces)).filter isReference

example : references [.code "ok := attr.Value // skip\n".toList, .type "[4]T".toList,
    .code "return f(\"a\", args...)".toList] = ["ok", "attr", "f", "args"] := by decide +kernel

/-! ## Parts that leave the reading as they found it -/

variable {s t : List Char} {front : Front} {pieces more : List Piece} {c : Char}
  {fixed made : List String} {name package : String}

/-- The pieces use these names only, whatever stands behind them. -/
def Refers (fixed made : List String) (pieces : List Piece) : Prop :=
  ∀ rest, ∀ word ∈ references (pieces ++ rest), (word ∈ fixed ∨ word ∈ made) ∨
    word ∈ references rest

theorem Refers.mem (h : Refers fixed made pieces) {word : String} (hw : word ∈ references pieces) :
    word ∈ fixed ∨ word ∈ made := by
  have hr := h [] word (by rwa [List.append_nil])
  exact hr.resolve_right List.not_mem_nil

theorem Refers.mono {names : List String} (h : Refers fixed made pieces) (hs : fixed ⊆ names) :
    Refers names made pieces :=
  fun rest word hw => (h rest word hw).imp_left (Or.imp_left (@hs word))

theorem refers_nil : Refers fixed made [.code []] := fun _ _ hw => .inr hw

theorem Refers.append (h : Refers fixed made pieces) (hm : Refers fixed made more) :
    Refers fixed made (pieces ++ more) := by
  intro rest word hw
  rw [List.append_assoc] at hw
  obtain hw | hw := h _ word hw
  · exact .inl hw
  · exact hm rest word hw

theorem Refers.code (hs : Refers fixed made [.code s]) (ht : Refers fixed made [.code t]) :
    Refers fixed made [.code (s ++ t)] := by
  intro rest word hw
  rw [references, List.singleton_append, outside_code_append, ← references] at hw
  exact (hs.append ht) rest word hw

theorem wordsFrom_append (hn : Text.isNameChar c = false) (hd : c ≠ '.') (s t : List Char) :
    wordsFrom front (s ++ c :: t) = wordsFrom front (s ++ [c]) ++ wordsFrom (.word []) t := by
  induction s generalizing front with
  | nil =>
    have hstart : wordsFrom (.word []) [] = [] := rfl
    rw [List.nil_append, List.nil_append, wordsFrom, wordsFrom, Front.next_sign hn hd, hstart,
      List.append_nil]
  | cons d s ih =>
    rw [List.cons_append, List.cons_append, wordsFrom, wordsFrom, ih, List.append_assoc]

theorem refers_of_closed (hz : Zone.after .code t = .code)
    (hl : (bare .code t).getLast?.any (fun c => !Text.isNameChar c && c != '.') = true)
    (hw : ∀ word ∈ wordsFrom (.word []) (bare .code t), isReference word = true →
      word ∈ fixed ∨ word ∈ made) :
    Refers fixed made [.code t] := by
  intro rest word hword
  obtain ⟨c, hc, hcs⟩ := (Option.any_eq_true _ _).1 hl
  obtain ⟨u, hu⟩ := List.getLast?_eq_some_iff.1 hc
  simp only [Bool.and_eq_true, Bool.not_eq_true', bne_iff_ne] at hcs
  rw [hu] at hw
  have hcut : references ([.code t] ++ rest) =
      (wordsFrom (.word []) (u ++ [c])).filter isReference ++ references rest := by
    simp only [references, List.singleton_append, outside, hz, hu, List.append_assoc]
    rw [wordsFrom_append hcs.1 hcs.2, List.filter_append]
  rw [hcut] at hword
  refine (List.mem_append.1 hword).imp_left fun hword => ?_
  obtain ⟨hmem, href⟩ := List.mem_filter.1 hword
  exact hw word hmem href

theorem refers_of_not_opener (c : Char) (h : ∀ d ∈ s, d ∉ openers)
    (hc : Text.isNameChar c = false ∧ c ∉ '.' :: openers)
    (hw : ∀ word ∈ wordsFrom (.word []) (s ++ [c]), isReference word = true →
      word ∈ fixed ∨ word ∈ made) :
    Refers fixed made [.code (s ++ [c])] := by
  have hall : ∀ d ∈ s ++ [c], d ∉ openers := by
    simpa [or_imp, forall_and] using ⟨h, List.not_mem_of_not_mem_cons hc.2⟩
  obtain ⟨hb, ha⟩ := bare_of_not_opener hall
  refine refers_of_closed ha (by rw [hb]; simp [hc.1, List.ne_of_not_mem_cons hc.2])
    fun word hword => ?_
  rw [hb] at hword
  exact hw word hword

/-- The code leaves the reading as it found it and uses these names only. -/
def keepsTo (fixed : List String) (cs : List Char) : Bool :=
  Zone.after .code cs = .code &&
    (bare .code cs).getLast?.any (fun c => !Text.isNameChar c && c != '.') &&
    (wordsFrom (.word []) (bare .code cs)).all fun word => isKeyword word || fixed.contains word ||
      !isReference word

theorem refers_of_keepsTo {cs : List Char} (h : keepsTo fixed cs = true) :
    Refers fixed made [.code cs] := by
  simp only [keepsTo, Bool.and_eq_true, decide_eq_true_eq, List.all_eq_true, Bool.or_eq_true,
    Bool.not_eq_true', List.contains_iff_mem] at h
  refine refers_of_closed h.1.1 h.1.2 fun word hw hr => .inl ?_
  obtain (hk | hf) | hn := h.2 word hw
  · rw [isReference, not_isIdentifier_of_isKeyword hk] at hr
    cases hr
  · exact hf
  · rw [hn] at hr
    cases hr

theorem refers_fixed (text : String) {cs : List Char} (ht : text.toList = cs)
    (h : keepsTo fixed cs = true) :
    Refers fixed made [.code text.toList] :=
  ht ▸ refers_of_keepsTo h

theorem wordsFrom_word {cs : List Char} (h : ∀ c ∈ cs, Text.isNameChar c = true)
    (before rest : List Char) :
    wordsFrom (.word before) (cs ++ rest) = wordsFrom (.word (before ++ cs)) rest := by
  induction cs generalizing before with
  | nil => rw [List.append_nil, List.nil_append]
  | cons c cs ih =>
    obtain ⟨hc, hcs⟩ := List.forall_mem_cons.1 h
    have hnone : Front.word? (.word before) c = none := by
      cases before with
      | nil => rfl
      | cons d ds => simp [Front.word?, hc]
    rw [List.cons_append, wordsFrom, Front.next_word hc, hnone, ih hcs, List.append_assoc]
    rfl

theorem wordsFrom_word_sign {cs : List Char} (hne : cs ≠ [])
    (h : ∀ c ∈ cs, Text.isNameChar c = true) (hn : Text.isNameChar c = false) (hd : c ≠ '.') :
    wordsFrom (.word []) (cs ++ [c]) = [String.ofList cs] := by
  obtain ⟨d, ds, rfl⟩ := List.exists_cons_of_ne_nil hne
  rw [wordsFrom_word h, List.nil_append, wordsFrom, Front.word?, hn, Front.next_sign hn hd]
  rfl

theorem wordsFrom_selected {cs : List Char} (h : ∀ c ∈ cs, Text.isNameChar c = true)
    (rest : List Char) :
    wordsFrom .selected (cs ++ rest) = wordsFrom .selected rest := by
  induction cs with
  | nil => rfl
  | cons c cs ih =>
    obtain ⟨hc, hcs⟩ := List.forall_mem_cons.1 h
    rw [List.cons_append, wordsFrom, Front.next_selected hc, ih hcs]
    rfl

theorem wordsFrom_blanks (n : Nat) (s : List Char) :
    wordsFrom (.word []) (List.replicate n ' ' ++ s) = wordsFrom (.word []) s := by
  have hnext : Front.next (.word []) ' ' = .word [] := by decide
  induction n with
  | zero => rfl
  | succ n ih =>
    rw [List.replicate_succ, List.cons_append, wordsFrom, hnext, ih]
    rfl

/-- A name that is made, with the sign behind it. -/
theorem refers_name (c : Char) (h : isIdentifier name = true)
    (hc : Text.isNameChar c = false ∧ c ∉ '.' :: openers)
    (hm : name ∈ made) : Refers fixed made [.code (name.toList ++ [c])] := by
  have hname : ∀ d ∈ name.toList, Text.isNameChar d = true := fun d hd => isNameChar_of_mem h hd
  refine refers_of_not_opener c (fun d hd => not_opener_of_isNameChar (hname d hd)) hc
    fun word hw _ => ?_
  rw [wordsFrom_word_sign (toList_ne_nil_of_isIdentifier h) hname hc.1
    (List.ne_of_not_mem_cons hc.2), String.ofList_toList] at hw
  exact .inr (List.mem_singleton.1 hw ▸ hm)

/-- Behind a package of the section's own and a dot, a name refers to nothing in the file. -/
theorem refers_qualified (c : Char) (hp : isIdentifier package = true)
    (hn : isIdentifier name = true)
    (hc : Text.isNameChar c = false ∧ c ∉ '.' :: openers) (hf : package ∈ fixed) :
    Refers fixed made [.code (package.toList ++ '.' :: name.toList ++ [c])] := by
  have hpackage : ∀ d ∈ package.toList, Text.isNameChar d = true :=
    fun d hd => isNameChar_of_mem hp hd
  have hname : ∀ d ∈ name.toList, Text.isNameChar d = true := fun d hd => isNameChar_of_mem hn hd
  have hdot : wordsFrom (.word package.toList) ('.' :: name.toList ++ [c]) =
      [package] ++ wordsFrom (.dot package.toList) (name.toList ++ [c]) := by
    obtain ⟨d, cs, hcs⟩ := List.exists_cons_of_ne_nil (toList_ne_nil_of_isIdentifier hp)
    rw [hcs, List.cons_append, wordsFrom, Front.word?, if_neg (by decide), ← hcs,
      String.ofList_toList]
    rfl
  have hselected : wordsFrom (.dot package.toList) (name.toList ++ [c]) = [] := by
    obtain ⟨d, cs, hcs⟩ := List.exists_cons_of_ne_nil (toList_ne_nil_of_isIdentifier hn)
    rw [hcs] at hname ⊢
    obtain ⟨hd, hrest⟩ := List.forall_mem_cons.1 hname
    rw [List.cons_append, wordsFrom, Front.next_dot hd, wordsFrom_selected hrest, wordsFrom,
      Front.next_sign hc.1 (List.ne_of_not_mem_cons hc.2)]
    rfl
  refine refers_of_not_opener c (not_opener_of_mem_qualified hp hn) hc fun word hw _ => ?_
  rw [List.append_assoc, wordsFrom_word hpackage, List.nil_append, hdot, hselected] at hw
  exact .inl (List.mem_singleton.1 hw ▸ hf)

theorem refers_literal (s : String) : Refers fixed made [.code (literal s).toList] := by
  intro rest word hw
  obtain ⟨ha, hb⟩ := bare_literal s
  rw [references, List.singleton_append, outside, ha, hb, wordsFrom_blanks] at hw
  exact .inr hw

theorem refers_type {type : String} (h : isTypeText type = true) :
    Refers fixed made [.type type.toList] := by
  intro rest word hw
  rw [references, List.singleton_append, outside, after_type h, wordsFrom_blanks] at hw
  exact .inr hw

theorem refers_end : Refers fixed made [.code "\n".toList] := by
  have hwords : wordsFrom (.word []) (bare .code ['\n']) = [] := by decide
  rw [String.toList_ofList]
  refine refers_of_closed rfl rfl fun word hw => ?_
  rw [hwords] at hw
  cases hw

theorem refers_ended_append {lines rest : List String}
    (hl : Refers fixed made [.code (ended lines).toList])
    (hr : Refers fixed made [.code (ended rest).toList]) :
    Refers fixed made [.code (ended (lines ++ rest)).toList] := by
  rw [ended_append, String.toList_append]
  exact hl.code hr

theorem refers_ended_cons {line : String} {rest : List String}
    (hl : Refers fixed made [.code (line ++ "\n").toList])
    (hr : Refers fixed made [.code (ended rest).toList]) :
    Refers fixed made [.code (ended (line :: rest)).toList] := by
  rw [toList_ended_line]
  exact hl.code hr

theorem refers_ended {lines : List String}
    (h : ∀ line ∈ lines, Refers fixed made [.code (line ++ "\n").toList]) :
    Refers fixed made [.code (ended lines).toList] := by
  induction lines with
  | nil => exact refers_nil
  | cons line lines ih =>
    obtain ⟨hline, hlines⟩ := List.forall_mem_cons.1 h
    exact refers_ended_cons hline (ih hlines)

end SlogHelpers.Source
