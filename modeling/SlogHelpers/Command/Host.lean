import SlogHelpers.Command.FileTree
import SlogHelpers.Command.Formatter

/-!
What the command needs of its surroundings, and surroundings that are nothing more than a tree of
files.
-/
namespace SlogHelpers.Command

/-- The surroundings of a command whose steps are taken in `m`. -/
structure Host (m : Type → Type) where
  input : m ByteArray
  readFile : String → m (Except FileFault ByteArray)
  isFolder : String → m Bool
  makeFolder : String → m (Except FileFault Unit)
  writeFile : String → ByteArray → m (Except FileFault Unit)
  rename : String → String → m (Except FileFault Unit)
  removeFile : String → m Unit
  runFormatter : String → String → m FormatterRun

namespace FileTree

/-- A step that changes the tree if it succeeds. -/
def step (change : FileTree → Except FileFault FileTree) :
    StateM FileTree (Except FileFault Unit) :=
  fun tree => match change tree with
    | .ok next => (.ok (), next)
    | .error fault => (.error fault, tree)

/-- The surroundings of a tree of files, with what the input holds and how formatters behave. -/
def host (input : ByteArray) (formatter : String → String → FormatterRun) :
    Host (StateM FileTree) where
  input := pure input
  readFile path := fun tree => (tree.read path, tree)
  isFolder path := fun tree => (tree.isFolder path, tree)
  makeFolder path := step (·.makeFolder path)
  writeFile path content := step (·.write path content)
  rename source target := step (·.rename source target)
  removeFile path := fun tree => ((), tree.removeFile path)
  runFormatter program source := pure (formatter program source)

end FileTree
end SlogHelpers.Command
