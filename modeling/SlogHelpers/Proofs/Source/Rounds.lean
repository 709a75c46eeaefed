import SlogHelpers.Proofs.Source.Progress

/-!
The readers of types with a limit on the rounds of each of their loops. A round that another one
follows takes something off the text, so that no loop comes to a limit above the length of the text,
and then the readers find what those without a limit do.
-/
namespace SlogHelpers.Source.TypeText

/-- What comes of a reading whose loops may be cut short. -/
inductive Outcome (α : Type) where
  | done (found : α)
  | refused
  | unfinished
  deriving DecidableEq

namespace Outcome

variable {α β : Type}

def bind (outcome : Outcome α) (next : α → Outcome β) : Outcome β :=
  match outcome with
  | .done found => next found
  | .refused => .refused
  | .unfinished => .unfinished

instance : Monad Outcome where
  pure := done
  bind := bind

def or (outcome other : Outcome α) : Outcome α :=
  match outcome with
  | .refused => other
  | outcome => outcome

def ofOption : Option α → Outcome α
  | some found => .done found
  | none => .refused

@[simp] theorem pure_eq (a : α) : (pure a : Outcome α) = .done a := rfl

@[simp] theorem done_bind (a : α) (next : α → Outcome β) : (Outcome.done a >>= next) = next a := rfl

@[simp] theorem refused_bind (next : α → Outcome β) :
    ((.refused : Outcome α) >>= next) = .refused := rfl

@[simp] theorem ofOption_some (a : α) : ofOption (some a) = .done a := rfl

@[simp] theorem ofOption_none : ofOption (none : Option α) = .refused := rfl

theorem ofOption_bind {found : Option α} {next : α → Outcome β} {after : α → Option β}
    (h : ∀ a, found = some a → next a = ofOption (after a)) :
    (ofOption found >>= next) = ofOption (found.bind after) := by
  cases found with
  | none => rfl
  | some a => exact h a rfl

theorem ofOption_or (found other : Option α) :
    (ofOption found).or (ofOption other) = ofOption (found.or other) := by
  cases found <;> rfl

end Outcome

open Outcome

/-- Takes something off the front of a text, as far as the limit on rounds allows. -/
abbrev BoundedReader := List Char → Outcome (List Char)

def plain (t : Taker) : BoundedReader := fun s => ofOption (t.rest? s)

/-! ## Loops -/

/-- How a round of a loop ends, with what is left of the text. -/
inductive Round where
  | last (rest : List Char)
  | again (rest : List Char)
  deriving DecidableEq

/-- At most `n` rounds of a loop. -/
def rounds (round : List Char → Outcome Round) : Nat → BoundedReader
  | 0, _ => .unfinished
  | n + 1, s => do
    match ← round s with
    | .last rest => pure rest
    | .again rest => rounds round n rest

/-- Behind a type argument, the closing bracket or a comma with one more argument. -/
def argumentsRound (type : BoundedReader) (s : List Char) : Outcome Round :=
  match (past? ']').rest? s with
  | some after => pure (.last after)
  | none => do
    let after ← ofOption ((past? ',').rest? s)
    let rest ← type (strip [' '] after).1
    pure (.again rest)

/-- Behind the opening or a separator, the closing character or one more item. -/
def itemsRound (item : BoundedReader) (separator close : Char) (s : List Char) : Outcome Round :=
  match (past? close).rest? s with
  | some after => pure (.last after)
  | none => do
    let rest ← item s
    match (past? close).rest? (skipSpaces rest) with
    | some after => pure (.last after)
    | none => do
      let after ← ofOption ((past? separator).rest? (skipSpaces rest))
      pure (.again (skipSpaces after))

/-- Behind an item, a separator with one more item, or the end. -/
def separatedRound (item : BoundedReader) (separator? : List Char → Option (List Char))
    (s : List Char) :
    Outcome Round :=
  match separator? s with
  | some after => do
    let rest ← item (skipSpaces after)
    pure (.again rest)
  | none => pure (.last s)

/-- A bar, with or without spaces in front of it. -/
def bar? (s : List Char) : Option (List Char) := (past? '|').rest? (skipSpaces s)

def comma? : List Char → Option (List Char) := (past? ',').rest?

/-- A round ends as `read` does where it is the last one, and otherwise leaves a shorter text at the
end of this one for `read` to go on with. -/
inductive Advances (read : List Char → Option (List Char)) (s : List Char) :
    Outcome Round → Prop where
  | refused (h : read s = none) : Advances read s .refused
  | last {rest : List Char} (h : read s = some rest) : Advances read s (.done (.last rest))
  | again {rest : List Char} (hs : rest <:+ s) (hl : rest.length < s.length)
    (h : read s = read rest) :
    Advances read s (.done (.again rest))

variable {read : List Char → Option (List Char)} {t : Taker} {s : List Char} {n : Nat}

/-- With as many rounds as the text has characters, and one more, a loop comes to its end. -/
theorem rounds_of_advances {round : List Char → Outcome Round}
    (h : ∀ s, s.length < n → Advances read s (round s)) {m : Nat} (hm : m ≤ n) (hs : s.length < m) :
    rounds round m s = ofOption (read s) := by
  induction m generalizing s with
  | zero => exact absurd hs (Nat.not_lt_zero _)
  | succ m ih =>
    have hround := h s (Nat.lt_of_lt_of_le hs hm)
    rw [rounds]
    generalize round s = outcome at hround
    cases hround with
    | refused hr =>
      rw [hr]
      rfl
    | last hr =>
      rw [hr]
      rfl
    | again _ hl hr =>
      rw [hr]
      exact ih (by omega) (by omega)

theorem argumentsRound_advances (ht : LeavesEnd t) (s : List Char) :
    Advances (argumentsRest? t) s (argumentsRound (plain t) s) := by
  cases hclose : (past? ']').rest? s with
  | some after =>
    have hread : argumentsRest? t s = some after := by rw [argumentsRest?, hclose, Option.some_or]
    simpa [argumentsRound, hclose] using Advances.last hread
  | none =>
    cases hcomma : (past? ',').rest? s with
    | none =>
      have hread : argumentsRest? t s = none := by simp [argumentsRest?, hclose, hcomma]
      simpa [argumentsRound, hclose, hcomma] using Advances.refused hread
    | some after =>
      have hread :
          argumentsRest? t s = (t.rest? (strip [' '] after).1).bind (argumentsRest? t) := by
        rw [argumentsRest?, hclose, hcomma, Option.none_or, Option.bind_some,
          rest?_typeArguments_bind]
      cases htype : t.rest? (strip [' '] after).1 with
      | none =>
        rw [htype] at hread
        simpa [argumentsRound, plain, hclose, hcomma, htype] using Advances.refused hread
      | some rest =>
        rw [htype] at hread
        have hafter := (strip_suffix [' '] after).trans (suffix_of_past? hcomma)
        have hlt := Nat.lt_of_lt_of_le (length_rest?_lt htype) hafter.length_le
        simpa [argumentsRound, plain, hclose, hcomma, htype] using
          Advances.again ((ht.suffix htype).trans hafter) hlt hread

theorem itemsRound_advances (ht : LeavesEnd t) (separator close : Char) (s : List Char) :
    Advances (itemsThen t separator close).rest? s (itemsRound (plain t) separator close s) := by
  cases hclose : (past? close).rest? s with
  | some after =>
    have hread : (itemsThen t separator close).rest? s = some after := by
      rw [rest?_itemsThen, hclose, Option.some_or]
    simpa [itemsRound, hclose] using Advances.last hread
  | none =>
    cases hitem : t.rest? s with
    | none =>
      have hread : (itemsThen t separator close).rest? s = none := by
        rw [rest?_itemsThen, hclose, hitem, Option.none_or, Option.bind_none]
      simpa [itemsRound, plain, hclose, hitem] using Advances.refused hread
    | some rest =>
      have hread := rest?_itemsThen t s separator close
      rw [hclose, hitem, Option.none_or, Option.bind_some] at hread
      cases hlast : (past? close).rest? (skipSpaces rest) with
      | some after =>
        rw [hlast, Option.some_or] at hread
        simpa [itemsRound, plain, hclose, hitem, hlast] using Advances.last hread
      | none =>
        rw [hlast, Option.none_or] at hread
        cases hmore : (past? separator).rest? (skipSpaces rest) with
        | none =>
          rw [hmore, Option.bind_none] at hread
          simpa [itemsRound, plain, hclose, hitem, hlast, hmore] using Advances.refused hread
        | some after =>
          rw [hmore, Option.bind_some] at hread
          have hafter : skipSpaces after <:+ rest :=
            (skipSpaces_suffix after).trans ((suffix_of_past? hmore).trans (skipSpaces_suffix rest))
          have hlt := Nat.lt_of_le_of_lt hafter.length_le (length_rest?_lt hitem)
          simpa [itemsRound, plain, hclose, hitem, hlast, hmore] using
            Advances.again (hafter.trans (ht.suffix hitem)) hlt hread

/-- What is read behind the first item of those that `whole` reads. -/
def separatedTail (whole : Taker) (separator? : List Char → Option (List Char)) (s : List Char) :
    Option (List Char) :=
  (separator? s).elim (some s) fun after => whole.rest? (skipSpaces after)

theorem separatedRound_advances {whole : Taker} {separator? : List Char → Option (List Char)}
    (ht : LeavesEnd t) (hs : ∀ {s after}, separator? s = some after → after <:+ s)
    (hw : ∀ s, whole.rest? s = (t.rest? s).bind (separatedTail whole separator?)) (s : List Char) :
    Advances (separatedTail whole separator?) s (separatedRound (plain t) separator? s) := by
  cases hsep : separator? s with
  | none =>
    have hread : separatedTail whole separator? s = some s := by
      rw [separatedTail, hsep, Option.elim_none]
    simpa [separatedRound, hsep] using Advances.last hread
  | some after =>
    have hread : separatedTail whole separator? s =
        (t.rest? (skipSpaces after)).bind (separatedTail whole separator?) := by
      rw [separatedTail, hsep, Option.elim_some, hw]
    cases hitem : t.rest? (skipSpaces after) with
    | none =>
      rw [hitem] at hread
      simpa [separatedRound, plain, hsep, hitem] using Advances.refused hread
    | some rest =>
      rw [hitem] at hread
      have hafter := (skipSpaces_suffix after).trans (hs hsep)
      have hlt := Nat.lt_of_lt_of_le (length_rest?_lt hitem) hafter.length_le
      simpa [separatedRound, plain, hsep, hitem]
        using Advances.again ((ht.suffix hitem).trans hafter) hlt hread

theorem suffix_of_bar? {after : List Char} (h : bar? s = some after) : after <:+ s :=
  (suffix_of_past? h).trans (skipSpaces_suffix s)

theorem rest?_union_tail (t : Taker) (s : List Char) :
    (union t).rest? s = ((unionTerm t).rest? s).bind (separatedTail (union t) bar?) :=
      rest?_union t s

theorem rest?_fieldNames_tail (s : List Char) :
    fieldNames.rest? s = (identifier.rest? s).bind (separatedTail fieldNames comma?) :=
      rest?_fieldNames s

inductive Loop where
  | typeArguments
  | parameters
  | interfaceBody
  | structBody
  | union
  | fieldNames

def Loop.round (levels : Nat) : Loop → List Char → Outcome Round
  | .typeArguments => argumentsRound (plain (take levels))
  | .parameters => itemsRound (plain (parameter (take levels))) ',' ')'
  | .interfaceBody => itemsRound (plain (interfaceElement (take levels))) ';' '\x7d'
  | .structBody => itemsRound (plain (field (take levels))) ';' '\x7d'
  | .union => separatedRound (plain (unionTerm (take levels))) bar?
  | .fieldNames => separatedRound (plain identifier) comma?

theorem Loop.advances (l : Loop) (levels : Nat) :
    ∃ read, ∀ s, Advances read s (l.round levels s) := by
  have ht := take_leavesEnd levels
  cases l with
  | typeArguments => exact ⟨_, argumentsRound_advances ht⟩
  | parameters => exact ⟨_, itemsRound_advances (parameter_leavesEnd ht) _ _⟩
  | interfaceBody => exact ⟨_, itemsRound_advances (interfaceElement_leavesEnd ht) _ _⟩
  | structBody => exact ⟨_, itemsRound_advances (field_leavesEnd ht) _ _⟩
  | union =>
    exact ⟨_, separatedRound_advances (unionTerm_leavesEnd ht) suffix_of_bar? (rest?_union_tail _)⟩
  | fieldNames =>
    exact ⟨_, separatedRound_advances identifier_leavesEnd suffix_of_past? rest?_fieldNames_tail⟩

/-! ## Readers -/

namespace BoundedReader

def andThen (first second : BoundedReader) : BoundedReader := fun s => first s >>= second

def orElse (first second : BoundedReader) : BoundedReader := fun s => (first s).or (second s)

def headed (head : Taker) (body other : BoundedReader) : BoundedReader := fun s =>
  match head.rest? s with
  | some rest => body rest
  | none => other s

def extendedBy (first : BoundedReader) (c : Char) (second : BoundedReader) :
    BoundedReader := fun s => do
  let rest ← first s
  match (past? c).rest? rest with
  | some after => second after
  | none => pure rest

def spaced (r : BoundedReader) : BoundedReader := fun s => r (skipSpaces s)

def marked (word : List Char) (r : BoundedReader) : BoundedReader := fun s => r (strip word s).1

section Nested

variable (n : Nat) (type : BoundedReader)

def itemsThen (item : BoundedReader) (separator close : Char) : BoundedReader :=
  rounds (itemsRound item separator close) n

def typeArguments : BoundedReader := type.andThen (rounds (argumentsRound type) n)

def variadic : BoundedReader := type.marked ['.', '.', '.']

def parameter : BoundedReader :=
  headed (identifier.andThen (past? ' ')) (variadic type).spaced (variadic type)

def parameters : BoundedReader := spaced (itemsThen n (parameter type) ',' ')')

def signature : BoundedReader := fun s => do
  let rest ← parameters n type s
  match (past? ' ').rest? rest with
  | none => pure rest
  | some after =>
    match (past? '(').rest? after with
    | some inner => parameters n type inner
    | none => (type after).or (pure rest)

def body (element : BoundedReader) : BoundedReader := spaced (itemsThen n element ';' '\x7d')

def unionTerm : BoundedReader := type.marked ['~']

def union : BoundedReader :=
  (unionTerm type).andThen (rounds (separatedRound (unionTerm type) bar?) n)

def interfaceElement : BoundedReader :=
  headed (identifier.andThen (past? '(')) (signature n type) (union n type)

def fieldNames : BoundedReader :=
  (plain identifier).andThen (rounds (separatedRound (plain identifier) comma?) n)

def namedField : BoundedReader := ((fieldNames n).andThen (plain (past? ' '))).andThen type.spaced

def field : BoundedReader :=
  ((namedField n type).orElse type).andThen fun s => ofOption (tagRest? s)

def opening : Opening → BoundedReader
  | .pointer => type
  | .slice => type
  | .map => (type.andThen (plain (past? ']'))).andThen type
  | .array => ((plain arrayLength).andThen (plain (past? ']'))).andThen type
  | .channel => type
  | .function => signature n type
  | .interface => body n (interfaceElement n type)
  | .struct => body n (field n type)

def named : BoundedReader := (plain typeName).extendedBy '[' (typeArguments n type)

end Nested

/-- One type, nested at most `levels` deep, with at most `n` rounds of each loop. -/
def take (n : Nat) : (levels : Nat) → BoundedReader
  | 0, _ => .refused
  | levels + 1, s =>
    match opening? s with
    | some (opening, inner) => BoundedReader.opening n (take n levels) opening inner.1
    | none => named n (take n levels) s

/-- The bounded reader does what the other one does with texts of fewer than `n` characters. -/
def Agrees (n : Nat) (r : BoundedReader) (t : Taker) : Prop :=
  ∀ s, s.length < n → r s = ofOption (t.rest? s)

namespace Agrees

variable {r q : BoundedReader} {u : Taker}

theorem plain (n : Nat) (t : Taker) : Agrees n (plain t) t := fun _ _ => rfl

theorem andThen (hr : Agrees n r t) (hq : Agrees n q u) : Agrees n (r.andThen q) (t.andThen u) := by
  intro s hs
  rw [BoundedReader.andThen, hr s hs, Taker.rest?_andThen]
  exact ofOption_bind fun rest hrest => hq rest ((length_rest?_lt hrest).trans hs)

theorem orElse (hr : Agrees n r t) (hq : Agrees n q u) : Agrees n (r.orElse q) (t.orElse u) := by
  intro s hs
  rw [BoundedReader.orElse, hr s hs, hq s hs, ofOption_or, Taker.rest?_orElse]

theorem headed {head : Taker} (hr : Agrees n r t) (hq : Agrees n q u) :
    Agrees n (headed head r q) (Taker.headed head t u) := by
  intro s hs
  rw [BoundedReader.headed, Taker.rest?_headed]
  cases hhead : head.rest? s with
  | none => exact hq s hs
  | some rest => exact hr rest ((length_rest?_lt hhead).trans hs)

theorem extendedBy {c : Char} (hr : Agrees n r t) (hq : Agrees n q u) :
    Agrees n (r.extendedBy c q) (t.extendedBy c u) := by
  intro s hs
  rw [BoundedReader.extendedBy, hr s hs, Taker.rest?_extendedBy]
  refine ofOption_bind fun rest hrest => ?_
  have hlt := (length_rest?_lt hrest).trans hs
  cases hc : (past? c).rest? rest with
  | none => rfl
  | some after => exact hq after ((length_rest?_lt hc).trans hlt)

theorem spaced (hr : Agrees n r t) : Agrees n r.spaced t.spaced := by
  intro s hs
  rw [BoundedReader.spaced, hr _ (Nat.lt_of_le_of_lt (length_skipSpaces_le s) hs),
    Taker.rest?_spaced]

theorem marked {word : List Char} (hr : Agrees n r t) :
    Agrees n (r.marked word) (t.marked word) := by
  intro s hs
  rw [BoundedReader.marked, hr _ (Nat.lt_of_le_of_lt (strip word s).2 hs), Taker.rest?_marked]

theorem argumentsRound_eq (hr : Agrees n r t) (hs : s.length < n) :
    argumentsRound r s = argumentsRound (TypeText.plain t) s := by
  rw [argumentsRound, argumentsRound]
  cases hcomma : (past? ',').rest? s with
  | none => rfl
  | some after =>
    have hafter := (strip_suffix [' '] after).trans (suffix_of_past? hcomma)
    simp only [ofOption_some, done_bind, hr _ (Nat.lt_of_le_of_lt hafter.length_le hs),
      TypeText.plain]

theorem itemsRound_eq (hr : Agrees n r t) (separator close : Char) (hs : s.length < n) :
    itemsRound r separator close s = itemsRound (TypeText.plain t) separator close s := by
  rw [itemsRound, itemsRound, hr s hs, TypeText.plain]

theorem separatedRound_eq {separator? : List Char → Option (List Char)} (hr : Agrees n r t)
    (hsep : ∀ {s after}, separator? s = some after → after <:+ s) (hs : s.length < n) :
    separatedRound r separator? s = separatedRound (TypeText.plain t) separator? s := by
  rw [separatedRound, separatedRound]
  cases hafter : separator? s with
  | none => rfl
  | some after =>
    have hsuffix := (skipSpaces_suffix after).trans (hsep hafter)
    simp only [hr _ (Nat.lt_of_le_of_lt hsuffix.length_le hs), TypeText.plain]

theorem itemsThen (hr : Agrees n r t) (ht : LeavesEnd t) (separator close : Char) :
    Agrees n (itemsThen n r separator close) (TypeText.itemsThen t separator close) := by
  refine fun s hs => rounds_of_advances (fun s hs => ?_) le_rfl hs
  rw [hr.itemsRound_eq separator close hs]
  exact itemsRound_advances ht separator close s

theorem typeArguments (hr : Agrees n r t) (ht : LeavesEnd t) :
    Agrees n (typeArguments n r) (TypeText.typeArguments t) := by
  intro s hs
  rw [BoundedReader.typeArguments, BoundedReader.andThen, hr s hs, rest?_typeArguments_bind]
  refine ofOption_bind fun rest hrest => ?_
  refine rounds_of_advances (fun s hs => ?_) le_rfl ((length_rest?_lt hrest).trans hs)
  rw [hr.argumentsRound_eq hs]
  exact argumentsRound_advances ht s

theorem separated {whole : Taker} {separator? : List Char → Option (List Char)} (hr : Agrees n r t)
    (ht : LeavesEnd t) (hsep : ∀ {s after}, separator? s = some after → after <:+ s)
    (hw : ∀ s, whole.rest? s = (t.rest? s).bind (separatedTail whole separator?)) :
    Agrees n (r.andThen (rounds (separatedRound r separator?) n)) whole := by
  intro s hs
  rw [BoundedReader.andThen, hr s hs, hw]
  refine ofOption_bind fun rest hrest => ?_
  refine rounds_of_advances (fun s hs => ?_) le_rfl ((length_rest?_lt hrest).trans hs)
  rw [hr.separatedRound_eq hsep hs]
  exact separatedRound_advances ht hsep hw s

theorem parameter (hr : Agrees n r t) : Agrees n (parameter r) (TypeText.parameter t) :=
  headed hr.marked.spaced hr.marked

theorem parameters (hr : Agrees n r t) (ht : LeavesEnd t) :
    Agrees n (parameters n r) (TypeText.parameters t) :=
  (hr.parameter.itemsThen (parameter_leavesEnd ht) ',' ')').spaced

theorem signature (hr : Agrees n r t) (ht : LeavesEnd t) :
    Agrees n (signature n r) (TypeText.signature t) := by
  have hparameters := hr.parameters ht
  intro s hs
  rw [BoundedReader.signature, hparameters s hs, rest?_signature]
  refine ofOption_bind fun rest hrest => ?_
  have hlt := (length_rest?_lt hrest).trans hs
  cases hspace : (past? ' ').rest? rest with
  | none => rfl
  | some after =>
    have hafter := (length_rest?_lt hspace).trans hlt
    cases hopen : (past? '(').rest? after with
    | some inner => simpa [hopen] using hparameters inner ((length_rest?_lt hopen).trans hafter)
    | none =>
      -- A space that no type follows is left alone.
      simp only [hopen, Option.elim_some, Option.elim_none, hr after hafter]
      cases t.rest? after <;> rfl

theorem body (hr : Agrees n r t) (ht : LeavesEnd t) : Agrees n (body n r) (TypeText.body t) :=
  (hr.itemsThen ht ';' '\x7d').spaced

theorem interfaceElement (hr : Agrees n r t) (ht : LeavesEnd t) :
    Agrees n (interfaceElement n r) (TypeText.interfaceElement t) := by
  have hunion : Agrees n (BoundedReader.union n r) (TypeText.union t) :=
    separated hr.marked (unionTerm_leavesEnd ht) suffix_of_bar? (rest?_union_tail t)
  exact headed (hr.signature ht) hunion

theorem namedField (hr : Agrees n r t) : Agrees n (namedField n r) (TypeText.namedField t) := by
  have hnames : Agrees n (BoundedReader.fieldNames n) TypeText.fieldNames :=
    separated (plain n identifier) identifier_leavesEnd suffix_of_past? rest?_fieldNames_tail
  exact (hnames.andThen (plain n _)).andThen hr.spaced

theorem field (hr : Agrees n r t) : Agrees n (field n r) (TypeText.field t) := by
  intro s hs
  rw [BoundedReader.field, BoundedReader.andThen, hr.namedField.orElse hr s hs, rest?_field,
    Taker.rest?_orElse]
  exact ofOption_bind fun _ _ => rfl

theorem opening (hr : Agrees n r t) (ht : LeavesEnd t) (opening : Opening) :
    Agrees n (BoundedReader.opening n r opening) (opening.take t) := by
  cases opening with
  | map => exact (hr.andThen (plain n _)).andThen hr
  | array => exact ((plain n arrayLength).andThen (plain n _)).andThen hr
  | function => exact hr.signature ht
  | interface => exact (hr.interfaceElement ht).body (interfaceElement_leavesEnd ht)
  | struct => exact hr.field.body (field_leavesEnd ht)
  | _ => exact hr

theorem take (n levels : Nat) : Agrees n (take n levels) (TypeText.take levels) := by
  induction levels with
  | zero => exact fun _ _ => rfl
  | succ levels ih =>
    have ht := take_leavesEnd levels
    intro s hs
    rw [BoundedReader.take, rest?_take_succ]
    cases opening? s with
    | none => exact (plain n typeName).extendedBy (ih.typeArguments ht) s hs
    | some found => exact ih.opening ht found.1 found.2.1 (Nat.lt_of_le_of_lt found.2.2 hs)

end Agrees

end BoundedReader

/-- Whether the whole text is one Go type, with at most `n` rounds of each loop. -/
def checkWithin (n : Nat) (type : String) : Outcome Bool :=
  match BoundedReader.take n maxLevels type.toList with
  | .done rest => .done rest.isEmpty
  | .refused => .done false
  | .unfinished => .unfinished

theorem checkWithin_eq {type : String} (h : type.toList.length < n) :
    checkWithin n type = .done (isTypeText type) := by
  rw [checkWithin, BoundedReader.Agrees.take n maxLevels _ h, Taker.rest?, isTypeText]
  cases take maxLevels type.toList <;> rfl

/-- Each construct leaves the end of the text that it is found in, and all but a tag take something
off its front. So does each round of a loop that another one follows: with more rounds than
characters no loop is cut short, and neither is the check, whatever the text is. -/
theorem type_readers_progress :
    (∀ (construct : Construct) (levels : Nat) (s rest : List Char),
      (construct.reader levels).rest? s = some rest → rest <:+ s ∧ rest.length < s.length) ∧
    (∀ s rest, tagRest? s = some rest → rest <:+ s) ∧
    (∀ (l : Loop) (levels : Nat) (s : List Char),
      (∀ next, l.round levels s = .done (.again next) → next <:+ s ∧ next.length < s.length) ∧
        ∀ n, s.length < n → rounds (l.round levels) n s ≠ .unfinished) ∧
    ∀ (n : Nat) (type : String), type.toList.length < n →
      checkWithin n type = .done (isTypeText type) := by
  refine ⟨fun construct levels s rest h =>
    ⟨(construct.leavesEnd levels).suffix h, length_rest?_lt h⟩,
    fun s rest h => suffix_of_tagRest? h, fun l levels s => ?_, fun n type h => checkWithin_eq h⟩
  obtain ⟨read, hread⟩ := l.advances levels
  constructor
  · intro next hnext
    have hs := hread s
    rw [hnext] at hs
    cases hs with
    | again hsuffix hlt _ => exact ⟨hsuffix, hlt⟩
  · intro n hn
    rw [rounds_of_advances (fun s _ => hread s) le_rfl hn]
    cases read s <;> nofun

theorem type_readers_progress_slice :
    (Construct.type.reader 2).rest? ['[', ']', 'T', ','] = some [','] ∧
      [','] <:+ ['[', ']', 'T', ','] ∧
      tagRest? [' ', 'T'] = some [' ', 'T'] ∧ [' ', 'T'] <:+ [' ', 'T'] ∧
      Loop.typeArguments.round 1 [',', 'T', ']'] = .done (.again [']']) ∧
        [']'] <:+ [',', 'T', ']'] ∧
      rounds (Loop.typeArguments.round 1) 4 [',', 'T', ']'] ≠ .unfinished ∧
      checkWithin 4 "[]T" = .done (isTypeText "[]T") := by
  have htype : (Construct.type.reader 2).rest? ['[', ']', 'T', ','] = some [','] := by decide
  have htag : tagRest? [' ', 'T'] = some [' ', 'T'] := by decide
  have hround : Loop.typeArguments.round 1 [',', 'T', ']'] = .done (.again [']']) := by decide
  obtain ⟨hreaders, htags, hloops, hcheck⟩ := type_readers_progress
  have hloop := hloops .typeArguments 1 [',', 'T', ']']
  exact ⟨htype, (hreaders _ _ _ _ htype).1, htag, htags _ _ htag, hround, (hloop.1 _ hround).1,
    hloop.2 4 (by decide), hcheck 4 "[]T" (by decide)⟩

example : checkWithin 2 "T[A, B, C]" = .unfinished ∧ checkWithin 3 "T[A, B, C]" = .done true := by
  decide +kernel

end SlogHelpers.Source.TypeText
