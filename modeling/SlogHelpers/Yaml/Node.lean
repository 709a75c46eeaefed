import SlogHelpers.Yaml.Token

/-!
The tree that the tokens of a YAML text spell out, with anchors and aliases as they were written. A
place that calls for a node and holds none has an empty plain scalar.
-/
namespace SlogHelpers.Yaml

/-- A node, whose anchors and aliases are told by names of type `ρ`. Only the tags of scalars are
kept. -/
inductive Node (ρ : Type) where
  | alias (target : ρ)
  | scalar (anchor : Option ρ) (tag : Option Tag) (text : String) (style : Style)
  | sequence (anchor : Option ρ) (items : List (Node ρ))
  | mapping (anchor : Option ρ) (pairs : List (Node ρ × Node ρ))

namespace Node

def empty {ρ : Type} : Node ρ := .scalar none none "" .plain

abbrev Handles := List (String × Tag)

def defaultHandles : Handles := [("!", .ofText "!"), ("!!", .ofText "tag:yaml.org,2002:")]

/-- The tag of a handle and a suffix. Without a handle the suffix is all of it. -/
def resolveTag (handles : Handles) (handle : String) (suffix : Tag) : Option Tag :=
  if handle.isEmpty then some suffix else (handles.lookup handle).map (· ++ suffix)

structure Properties where
  anchor : Option String := none
  tag : Option Tag := none

/-- The properties at the front of the tokens, at most one of each kind in either order, and the
tokens after them. -/
def properties (handles : Handles) (ts : List Token) :
    Option (Properties × { rest : List Token // rest.length ≤ ts.length }) :=
  match ts with
  | .anchor name :: .tag handle suffix :: rest =>
    (resolveTag handles handle suffix).map fun tag =>
      ({ anchor := some name, tag := some tag }, ⟨rest, by simp only [List.length_cons]; omega⟩)
  | .tag handle suffix :: .anchor name :: rest =>
    (resolveTag handles handle suffix).map fun tag =>
      ({ anchor := some name, tag := some tag }, ⟨rest, by simp only [List.length_cons]; omega⟩)
  | .anchor name :: rest => some ({ anchor := some name }, ⟨rest, by simp⟩)
  | .tag handle suffix :: rest =>
    (resolveTag handles handle suffix).map fun tag => ({ tag := some tag }, ⟨rest, by simp⟩)
  | ts => some ({}, ⟨ts, Nat.le_refl _⟩)

def next (ts : List Token) : Token := ts.headD .textEnd

/-- Tokens before which a key or a value of a block mapping may be missing. -/
def endsBlockPart (t : Token) : Bool := t == .key || t == .value || t == .blockEnd

def endsBlockItem (t : Token) : Bool := t == .blockEntry || t == .blockEnd

/-- Tokens before which an item of a block sequence without indentation may be missing. -/
def endsIndentlessItem (t : Token) : Bool := t == .blockEntry || endsBlockPart t

def endsFlowValue (close t : Token) : Bool := t == .flowEntry || t == close

def endsFlowKey (close t : Token) : Bool := t == .value || endsFlowValue close t

/-- Something read from the front of the tokens, which takes at least one of them. -/
abbrev Taken (α : Type) (ts : List Token) : Type :=
  Option (α × { rest : List Token // rest.length < ts.length })

abbrev Found (α : Type) (ts : List Token) : Type :=
  Option (α × { rest : List Token // rest.length ≤ ts.length })

mutual

/-- A node. Block collections are allowed only where `block` says so; where `indentless` does, a
dash begins a sequence that is not indented. -/
def read (handles : Handles) (block indentless : Bool) (ts : List Token) : Taken (Node String) ts :=
  match ts with
  | .alias name :: rest => some (.alias name, ⟨rest, by simp⟩)
  | ts => do
    let (p, ⟨after, ha⟩) ← properties handles ts
    match hr : after with
    | .scalar text style :: rest =>
      some (.scalar p.anchor p.tag text style, ⟨rest, by rw [hr, List.length_cons] at ha; omega⟩)
    | .flowSequence :: rest => do
      let (items, ⟨rest, h⟩) ← flowItems handles true rest
      some (.sequence p.anchor items, ⟨rest, by rw [hr, List.length_cons] at ha; omega⟩)
    | .flowMapping :: rest => do
      let (pairs, ⟨rest, h⟩) ← flowPairs handles true rest
      some (.mapping p.anchor pairs, ⟨rest, by rw [hr, List.length_cons] at ha; omega⟩)
    | first :: rest =>
      if indentless ∧ first = .blockEntry then do
        let (items, ⟨rest, h⟩) ← indentlessItems handles rest
        some (.sequence p.anchor items, ⟨rest, by rw [hr, List.length_cons] at ha; omega⟩)
      else if block ∧ first = .blockSequence then do
        let (items, ⟨rest, h⟩) ← blockItems handles rest
        some (.sequence p.anchor items, ⟨rest, by rw [hr, List.length_cons] at ha; omega⟩)
      else if block ∧ first = .blockMapping then do
        let (pairs, ⟨rest, h⟩) ← blockPairs handles rest
        some (.mapping p.anchor pairs, ⟨rest, by rw [hr, List.length_cons] at ha; omega⟩)
      else if h : after.length < ts.length then some (.scalar p.anchor p.tag "" .plain, ⟨after, h⟩)
      else none
    | [] => none
termination_by (ts.length, 0)
decreasing_by
  all_goals
    rw [hr, List.length_cons] at ha
    exact Prod.Lex.left _ _ (by omega)

def readUnless (handles : Handles) (ends : Token → Bool) (block indentless : Bool)
    (ts : List Token) :
    Found (Node String) ts :=
  if ends (next ts) then some (.empty, ⟨ts, Nat.le_refl _⟩)
  else do
    let (node, ⟨rest, h⟩) ← read handles block indentless ts
    some (node, ⟨rest, Nat.le_of_lt h⟩)
termination_by (ts.length, 1)
decreasing_by exact Prod.Lex.right _ (by decide)

def readValue (handles : Handles) (ends : Token → Bool) (block : Bool) (ts : List Token) :
    Found (Node String) ts :=
  match ts with
  | .value :: rest => do
    let (node, ⟨rest, h⟩) ← readUnless handles ends block block rest
    some (node, ⟨rest, by simp only [List.length_cons]; omega⟩)
  | ts => some (.empty, ⟨ts, Nat.le_refl _⟩)
termination_by (ts.length, 0)
decreasing_by exact Prod.Lex.left _ _ (by simp)

def blockItems (handles : Handles) (ts : List Token) : Taken (List (Node String)) ts :=
  match ts with
  | .blockEnd :: rest => some ([], ⟨rest, by simp⟩)
  | .blockEntry :: rest => do
    let (item, ⟨rest, h⟩) ← readUnless handles endsBlockItem true false rest
    let (items, ⟨rest, h'⟩) ← blockItems handles rest
    some (item :: items, ⟨rest, by simp only [List.length_cons]; omega⟩)
  | _ => none
termination_by (ts.length, 0)
decreasing_by all_goals exact Prod.Lex.left _ _ (by simp only [List.length_cons]; omega)

/-- The items of a block sequence without indentation, read from behind the first dash. It ends at
whatever is no dash. -/
def indentlessItems (handles : Handles) (ts : List Token) : Found (List (Node String)) ts := do
  let (item, ⟨rest, h⟩) ← readUnless handles endsIndentlessItem true false ts
  match hr : rest with
  | .blockEntry :: rest => do
    let (items, ⟨rest, h'⟩) ← indentlessItems handles rest
    some (item :: items, ⟨rest, by rw [hr, List.length_cons] at h; omega⟩)
  | _ => some ([item], ⟨rest, h⟩)
termination_by (ts.length, 2)
decreasing_by
  · exact Prod.Lex.right _ (by decide)
  · exact Prod.Lex.left _ _ (by rw [hr, List.length_cons] at h; omega)

def blockPairs (handles : Handles) (ts : List Token) :
    Taken (List (Node String × Node String)) ts :=
  match ts with
  | .blockEnd :: rest => some ([], ⟨rest, by simp⟩)
  | .key :: rest => do
    let (key, ⟨rest, h⟩) ← readUnless handles endsBlockPart true true rest
    let (value, ⟨rest, h'⟩) ← readValue handles endsBlockPart true rest
    let (pairs, ⟨rest, h''⟩) ← blockPairs handles rest
    some ((key, value) :: pairs, ⟨rest, by simp only [List.length_cons]; omega⟩)
  | _ => none
termination_by (ts.length, 0)
decreasing_by all_goals exact Prod.Lex.left _ _ (by simp only [List.length_cons]; omega)

def flowItems (handles : Handles) (first : Bool) (ts : List Token) :
    Taken (List (Node String)) ts :=
  match ts with
  | .flowSequenceEnd :: rest => some ([], ⟨rest, by simp⟩)
  | .flowEntry :: rest =>
    if first then none
    else do
      let (items, ⟨rest, h⟩) ← flowItemsFrom handles rest
      some (items, ⟨rest, by simp only [List.length_cons]; omega⟩)
  | ts => if first then flowItemsFrom handles ts else none
termination_by (ts.length, 2)
decreasing_by
  · exact Prod.Lex.left _ _ (by simp)
  · exact Prod.Lex.right _ (by decide)

/-- An item of a flow sequence and those after it, or the bracket. A key begins a mapping of one
pair; if the key itself is missing, the token that shows it is taken for it. -/
def flowItemsFrom (handles : Handles) (ts : List Token) : Taken (List (Node String)) ts :=
  match ts with
  | .flowSequenceEnd :: rest => some ([], ⟨rest, by simp⟩)
  | .key :: t :: rest =>
    if endsFlowKey .flowSequenceEnd t then do
      let (items, ⟨rest, h⟩) ← flowItemsWith handles .empty rest
      some (items, ⟨rest, by simp only [List.length_cons]; omega⟩)
    else do
      let (key, ⟨rest, h⟩) ← read handles false false (t :: rest)
      let (items, ⟨rest, h'⟩) ← flowItemsWith handles key rest
      some (items, ⟨rest, by simp only [List.length_cons] at *; omega⟩)
  | ts => do
    let (item, ⟨rest, h⟩) ← read handles false false ts
    let (items, ⟨rest, h'⟩) ← flowItems handles false rest
    some (item :: items, ⟨rest, by omega⟩)
termination_by (ts.length, 1)
decreasing_by
  · exact Prod.Lex.left _ _ (by simp only [List.length_cons]; omega)
  · exact Prod.Lex.left _ _ (by simp only [List.length_cons]; omega)
  · exact Prod.Lex.left _ _ (by simp only [List.length_cons] at *; omega)
  · exact Prod.Lex.right _ (by decide)
  · exact Prod.Lex.left _ _ h

def flowItemsWith (handles : Handles) (key : Node String) (ts : List Token) :
    Found (List (Node String)) ts := do
  let (value, ⟨rest, h⟩) ← readValue handles (endsFlowValue .flowSequenceEnd) false ts
  let (items, ⟨rest, h'⟩) ← flowItems handles false rest
  some (.mapping none [(key, value)] :: items, ⟨rest, by omega⟩)
termination_by (ts.length, 3)
decreasing_by
  · exact Prod.Lex.right _ (by decide)
  · rcases Nat.lt_or_eq_of_le h with h | h
    · exact Prod.Lex.left _ _ h
    · rw [h]; exact Prod.Lex.right _ (by decide)

def flowPairs (handles : Handles) (first : Bool) (ts : List Token) :
    Taken (List (Node String × Node String)) ts :=
  match ts with
  | .flowMappingEnd :: rest => some ([], ⟨rest, by simp⟩)
  | .flowEntry :: rest =>
    if first then none
    else do
      let (pairs, ⟨rest, h⟩) ← flowPairsFrom handles rest
      some (pairs, ⟨rest, by simp only [List.length_cons]; omega⟩)
  | ts => if first then flowPairsFrom handles ts else none
termination_by (ts.length, 2)
decreasing_by
  · exact Prod.Lex.left _ _ (by simp)
  · exact Prod.Lex.right _ (by decide)

/-- A pair of a flow mapping and those after it, or the brace. A node that is not marked as a key
has no value. -/
def flowPairsFrom (handles : Handles) (ts : List Token) :
    Taken (List (Node String × Node String)) ts :=
  match ts with
  | .flowMappingEnd :: rest => some ([], ⟨rest, by simp⟩)
  | .key :: rest => do
    let (key, ⟨rest, h⟩) ← readUnless handles (endsFlowKey .flowMappingEnd) false false rest
    let (value, ⟨rest, h'⟩) ← readValue handles (endsFlowValue .flowMappingEnd) false rest
    let (pairs, ⟨rest, h''⟩) ← flowPairs handles false rest
    some ((key, value) :: pairs, ⟨rest, by simp only [List.length_cons]; omega⟩)
  | ts => do
    let (key, ⟨rest, h⟩) ← read handles false false ts
    let (pairs, ⟨rest, h'⟩) ← flowPairs handles false rest
    some ((key, .empty) :: pairs, ⟨rest, by omega⟩)
termination_by (ts.length, 1)
decreasing_by
  · exact Prod.Lex.left _ _ (by simp)
  · exact Prod.Lex.left _ _ (by simp only [List.length_cons]; omega)
  · exact Prod.Lex.left _ _ (by simp only [List.length_cons]; omega)
  · exact Prod.Lex.right _ (by decide)
  · exact Prod.Lex.left _ _ h

end

end Node
end SlogHelpers.Yaml
