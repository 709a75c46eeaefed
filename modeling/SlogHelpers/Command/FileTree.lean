/-!
A tree of files and folders, and what the operations of a file system do to it. A place is told by
the names on the way to it from the root, which is always a folder.
-/
namespace SlogHelpers.Command

inductive FileFault where
  | notFound
  | alreadyThere
  | notFolder
  | isFolder
  | nameTooLong
  /-- The file holds octets that are no text. -/
  | notText
  /-- A fault of another kind, with its number and name. -/
  | other (code : Nat) (reason : String)
  deriving DecidableEq, Repr

def numbered (reason : String) (code : Nat) : String :=
  reason ++ " (os error " ++ toString code ++ ")"

def FileFault.message : FileFault → String
  | .notFound => numbered "No such file or directory" 2
  | .alreadyThere => numbered "File exists" 17
  | .notFolder => numbered "Not a directory" 20
  | .isFolder => numbered "Is a directory" 21
  | .nameTooLong => numbered "File name too long" 36
  | .notText => "stream did not contain valid UTF-8"
  | .other code reason => numbered reason code

inductive Item where
  | file (content : ByteArray)
  | folder

abbrev Place := List String

structure FileTree where
  entries : List (Place × Item) := []

namespace FileTree

def itemAt (place : Place) : List (Place × Item) → Option Item
  | [] => none
  | (p, item) :: rest => if p = place then some item else itemAt place rest

def without (place : Place) : List (Place × Item) → List (Place × Item)
  | [] => []
  | (p, item) :: rest => if p = place then without place rest else (p, item) :: without place rest

def item? (tree : FileTree) (place : Place) : Option Item :=
  if place = [] then some .folder else itemAt place tree.entries

def put (tree : FileTree) (place : Place) (item : Item) : FileTree :=
  ⟨(place, item) :: without place tree.entries⟩

def remove (tree : FileTree) (place : Place) : FileTree := ⟨without place tree.entries⟩

theorem itemAt_without (p q : Place) (entries : List (Place × Item)) :
    itemAt q (without p entries) = if p = q then none else itemAt q entries := by
  induction entries with
  | nil => simp [without, itemAt]
  | cons entry rest ih =>
    obtain ⟨place, item⟩ := entry
    by_cases hp : place = p
    · subst hp
      by_cases hq : place = q
      · simpa [without, itemAt, hq] using ih
      · simpa [without, itemAt, hq] using ih
    · by_cases hq : place = q
      · subst hq
        simp [without, itemAt, hp, Ne.symm hp]
      · simpa [without, itemAt, hp, hq] using ih

theorem item?_put (tree : FileTree) (p q : Place) (item : Item) :
    (tree.put p item).item? q =
      if q = [] then some .folder else if p = q then some item else tree.item? q := by
  by_cases h : q = []
  · simp [item?, h]
  · by_cases hp : p = q <;> simp [item?, put, itemAt, itemAt_without, h, hp]

theorem item?_remove (tree : FileTree) (p q : Place) :
    (tree.remove p).item? q =
      if q = [] then some .folder else if p = q then none else tree.item? q := by
  by_cases h : q = []
  · simp [item?, h]
  · by_cases hp : p = q <;> simp [item?, remove, itemAt_without, h, hp]

def maxName : Nat := 255

/-- The number of octets from which on a path is too long. -/
def maxPath : Nat := 4096

/-- The place that names lead to from another one. Each folder on the way has to be there; what
stands at the end does not. -/
def walk (tree : FileTree) (here : Place) : List String → Except FileFault Place
  | [] => .ok here
  | name :: rest =>
    match tree.item? here with
    | none => .error .notFound
    | some (.file _) => .error .notFolder
    | some .folder =>
      if name = "" ∨ name = "." then tree.walk here rest
      else if name = ".." then tree.walk here.dropLast rest
      else if maxName < name.utf8ByteSize then .error .nameTooLong
      else tree.walk (here ++ [name]) rest

def locate (tree : FileTree) (path : String) : Except FileFault Place :=
  if maxPath ≤ path.utf8ByteSize then .error .nameTooLong
  else tree.walk [] ((path.toList.splitOn '/').map String.ofList)

def read (tree : FileTree) (path : String) : Except FileFault ByteArray := do
  let place ← tree.locate path
  match tree.item? place with
  | none => .error .notFound
  | some .folder => .error .isFolder
  | some (.file content) => .ok content

def isFolder (tree : FileTree) (path : String) : Bool :=
  match tree.locate path with
  | .error _ => false
  | .ok place =>
    match tree.item? place with
    | some .folder => true
    | _ => false

def makeFolder (tree : FileTree) (path : String) : Except FileFault FileTree := do
  let place ← tree.locate path
  match tree.item? place with
  | some _ => .error .alreadyThere
  | none => .ok (tree.put place .folder)

def write (tree : FileTree) (path : String) (content : ByteArray) : Except FileFault FileTree := do
  let place ← tree.locate path
  match tree.item? place with
  | some .folder => .error .isFolder
  | _ => .ok (tree.put place (.file content))

def rename (tree : FileTree) (source target : String) : Except FileFault FileTree := do
  let first ← tree.locate source
  let last ← tree.locate target
  match tree.item? first, tree.item? last with
  | none, _ => .error .notFound
  | some .folder, _ => .error .isFolder
  | some (.file _), some .folder => .error .isFolder
  | some (.file content), _ => .ok ((tree.remove first).put last (.file content))

def removeFile (tree : FileTree) (path : String) : FileTree :=
  match tree.locate path with
  | .error _ => tree
  | .ok place =>
    match tree.item? place with
    | some (.file _) => tree.remove place
    | _ => tree

/-- With a file at a place, and the folders on the way to it. -/
def plant (tree : FileTree) (place : Place) (content : ByteArray) : FileTree :=
  let folders := (List.range place.length).map place.take
  (folders.foldl (fun tree folder => tree.put folder .folder) tree).put place (.file content)

end FileTree
end SlogHelpers.Command
