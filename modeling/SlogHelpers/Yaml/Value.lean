import SlogHelpers.Yaml.Node

/-!
What a YAML text says once its aliases are replaced by the nodes they stand for. Anchors are
numbered first, in the order of the text, and an alias stands for the last node that bears its
number.
-/
namespace SlogHelpers.Yaml

inductive Value where
  | scalar (tag : Option Tag) (style : Style) (text : String)
  | sequence (items : List Value)
  | mapping (pairs : List (Value × Value))

namespace Node

/-- Steps that know the numbers of the names met so far, and fail at a name not met yet. -/
abbrev Numbering := StateT (List (String × Nat)) Option

/-- The number of an anchor: how many other names were known before it. A name that comes again gets
a new number and does not count twice. -/
def numberAnchor : Option String → Numbering (Option Nat)
  | none => pure none
  | some name => do
    let known ← get
    set ((name, known.length) :: known.filter (·.1 ≠ name))
    pure (some known.length)

mutual

def number : Node String → Numbering (Node Nat)
  | .alias name => do
    match (← get).lookup name with
    | some target => pure (.alias target)
    | none => failure
  | .scalar anchor tag text style => do
    let anchor ← numberAnchor anchor
    pure (.scalar anchor tag text style)
  | .sequence anchor items => do
    let anchor ← numberAnchor anchor
    let items ← numberItems items
    pure (.sequence anchor items)
  | .mapping anchor pairs => do
    let anchor ← numberAnchor anchor
    let pairs ← numberPairs pairs
    pure (.mapping anchor pairs)

def numberItems : List (Node String) → Numbering (List (Node Nat))
  | [] => pure []
  | item :: rest => do
    let item ← number item
    let rest ← numberItems rest
    pure (item :: rest)

def numberPairs : List (Node String × Node String) → Numbering (List (Node Nat × Node Nat))
  | [] => pure []
  | (key, value) :: rest => do
    let key ← number key
    let value ← number value
    let rest ← numberPairs rest
    pure ((key, value) :: rest)

end

def anchor? : Node Nat → Option Nat
  | .alias _ => none
  | .scalar anchor _ _ _ => anchor
  | .sequence anchor _ => anchor
  | .mapping anchor _ => anchor

mutual

def nodes : Node Nat → List (Node Nat)
  | .sequence anchor items => .sequence anchor items :: nodesOfItems items
  | .mapping anchor pairs => .mapping anchor pairs :: nodesOfPairs pairs
  | node => [node]

def nodesOfItems : List (Node Nat) → List (Node Nat)
  | [] => []
  | item :: rest => nodes item ++ nodesOfItems rest

def nodesOfPairs : List (Node Nat × Node Nat) → List (Node Nat)
  | [] => []
  | (key, value) :: rest => nodes key ++ nodes value ++ nodesOfPairs rest

end

/-- The last node that bears each number. -/
def bearers (root : Node Nat) : List (Nat × Node Nat) :=
  (root.nodes.filterMap fun node => node.anchor?.map fun anchor => (anchor, node)).reverse

/-- How many signs the parts of a text amount to: a collection has one for its start and one for its
end. -/
def signs (root : Node Nat) : Nat :=
  root.nodes.foldl (fun n node => n + match node with
    | .sequence _ _ => 2
    | .mapping _ _ => 2
    | _ => 1) 0

/-- Steps that may replace only so many aliases more. -/
abbrev Expansion := StateT Nat Option

/-- What an alias stands for; any other node stands for itself. -/
def follow (known : List (Nat × Node Nat)) : Node Nat → Expansion (Node Nat)
  | .alias target => do
    match ← get with
    | 0 => failure
    | left + 1 => do
      set left
      match known.lookup target with
      | some node => pure node
      | none => failure
  | node => pure node

/-- The value of a node that nests no deeper than the given number of levels. A node inside itself
is deeper than any. -/
def expand (known : List (Nat × Node Nat)) : Nat → Node Nat → Expansion Value
  | 0, _ => failure
  | depth + 1, node => do
    match ← follow known node with
    | .alias _ => failure
    | .scalar _ tag text style => pure (.scalar tag style text)
    | .sequence _ items => do
      let items ← items.mapM (expand known depth)
      pure (.sequence items)
    | .mapping _ pairs => do
      let pairs ← pairs.mapM fun (key, value) => do
        let key ← expand known depth key
        let value ← expand known depth value
        pure (key, value)
      pure (.mapping pairs)

/-- The value of a whole text. A hundred aliases may be replaced for each sign of it. -/
def value? (depth : Nat) (root : Node String) : Option Value := do
  let (root, _) ← root.number.run []
  let (value, _) ← (expand root.bearers depth root).run (100 * root.signs)
  some value

/-- The directives at the front, of which each kind and each handle may come once. -/
def directives (versioned : Bool) (handles : Handles) : List Token → Option (Handles × List Token)
  | .version major minor :: rest =>
    if versioned || major != 1 || !(minor == 1 || minor == 2) then none
    else directives true handles rest
  | .tagDirective handle lead :: rest =>
    if (handles.lookup handle).isSome then none
    else directives versioned ((handle, lead) :: handles) rest
  | ts => some (handles, ts)

def endsDocument : Token → Bool
  | .version _ _ => true
  | .tagDirective _ _ => true
  | .documentStart => true
  | .documentEnd => true
  | .textEnd => true
  | _ => false

def isLast (ts : List Token) : Bool := ts.dropWhile (· == .documentEnd) == [.textEnd]

/-- The root of the only document in a text. A text without any document has the empty node. -/
def ofTokens? (ts : List Token) : Option (Node String) := do
  if next ts = .textEnd then some .empty
  else
    let (handles, rest) ← directives false [] ts
    match rest with
    | .documentStart :: rest => do
      let (node, ⟨rest, _⟩) ←
        readUnless (handles ++ defaultHandles) endsDocument true false rest
      if isLast rest then some node else none
    | _ => do
      let (node, ⟨rest, _⟩) ← read defaultHandles true false ts
      if isLast rest then some node else none

end Node

def read (depth : Nat) (text : String) : Option Value := do
  let tokens ← tokens? text
  let root ← Node.ofTokens? tokens
  root.value? depth

end SlogHelpers.Yaml
