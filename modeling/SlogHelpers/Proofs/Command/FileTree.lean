import SlogHelpers.Command.Run
import SlogHelpers.Proofs.Fallible
import SlogHelpers.Proofs.Lists

/-!
Places and paths. Where a path leads depends only on which places are folders, so that it leads
there still when more of them are; a plain name behind a path leads one step further. Operations are
told by the places where they change something.
-/
namespace SlogHelpers.Command
namespace FileTree
open Fallible

variable {tree after : FileTree} {here place : Place} {name path : String} {names : List String}

/-! ## Walks -/

def enter? (here : Place) (name : String) : Option Place :=
  if name = "" ∨ name = "." then some here
  else if name = ".." then some here.dropLast
  else if maxName < name.utf8ByteSize then none
  else some (here ++ [name])

theorem walk_cons_eq_ok {rest : List String} :
    tree.walk here (name :: rest) = .ok place ↔
      tree.item? here = some .folder ∧ ∃ next, enter? here name = some next ∧
        tree.walk next rest = .ok place := by
  rw [walk, enter?]
  cases hi : tree.item? here with
  | none => simp
  | some item =>
    cases item with
    | file content => simp
    | folder =>
      by_cases hn : name = "" ∨ name = "."
      · simp [hn]
      · by_cases hup : name = ".."
        · simp [hup]
        · by_cases hlong : maxName < name.utf8ByteSize
          · simp [hn, hup, hlong]
          · simp [hn, hup, hlong]

/-- The folders of the first tree are folders of the second one. -/
def KeepsFolders (tree after : FileTree) : Prop :=
  ∀ place, tree.item? place = some .folder → after.item? place = some .folder

theorem KeepsFolders.trans {last : FileTree} (h : tree.KeepsFolders after)
    (hl : after.KeepsFolders last) :
    tree.KeepsFolders last := fun place hp => hl place (h place hp)

theorem walk_mono (h : tree.KeepsFolders after) (hw : tree.walk here names = .ok place) :
    after.walk here names = .ok place := by
  induction names generalizing here with
  | nil => exact hw
  | cons name rest ih =>
    obtain ⟨hf, next, hn, hw⟩ := walk_cons_eq_ok.1 hw
    exact walk_cons_eq_ok.2 ⟨h here hf, next, hn, ih hw⟩

theorem walk_append {more : List String} (hw : tree.walk here (names ++ more) = .ok place) :
    ∃ middle, tree.walk here names = .ok middle ∧ tree.walk middle more = .ok place := by
  induction names generalizing here with
  | nil => exact ⟨here, rfl, hw⟩
  | cons name rest ih =>
    obtain ⟨hf, next, hn, hw⟩ := walk_cons_eq_ok.1 hw
    obtain ⟨middle, hm, hw⟩ := ih hw
    exact ⟨middle, walk_cons_eq_ok.2 ⟨hf, next, hn, hm⟩, hw⟩

theorem walk_append_empty (hw : tree.walk here names = .ok place)
    (hf : tree.item? place = some .folder) :
    tree.walk here (names ++ [""]) = .ok place := by
  induction names generalizing here with
  | nil =>
    obtain rfl := Except.ok.inj hw
    exact walk_cons_eq_ok.2 ⟨hf, here, by simp [enter?], rfl⟩
  | cons name rest ih =>
    obtain ⟨hh, next, hn, hw⟩ := walk_cons_eq_ok.1 hw
    exact walk_cons_eq_ok.2 ⟨hh, next, hn, ih hw⟩

theorem locate_eq_ok :
    tree.locate path = .ok place ↔
      path.utf8ByteSize < maxPath ∧
        tree.walk [] ((path.toList.splitOn '/').map String.ofList) = .ok place := by
  rw [locate]
  split
  · next hlong => simp [Nat.not_lt.2 hlong]
  · next hlong => simp [Nat.lt_of_not_le hlong]

theorem locate_mono (h : tree.KeepsFolders after) (hp : tree.locate path = .ok place) :
    after.locate path = .ok place := by
  obtain ⟨hlong, hw⟩ := locate_eq_ok.1 hp
  exact locate_eq_ok.2 ⟨hlong, walk_mono h hw⟩

/-! ## Names behind paths -/

structure PlainName (name : String) : Prop where
  separator : '/' ∉ name.toList
  ne_empty : name ≠ ""
  ne_dot : name ≠ "."
  ne_dots : name ≠ ".."

/-- The names on a path with a name behind it are those on the path, but for an empty one at its
end. -/
theorem splitOn_joinPath (folder : String) (h : '/' ∉ name.toList) :
    ∃ names, ((joinPath folder name).toList.splitOn '/').map String.ofList = names ++ [name] ∧
      ((folder.toList.splitOn '/').map String.ofList = names ∨
        (folder.toList.splitOn '/').map String.ofList = names ++ [""]) := by
  have hs (front : List Char) : ((front ++ '/' :: name.toList).splitOn '/').map String.ofList =
      (front.splitOn '/').map String.ofList ++ [name] := by
    rw [List.splitOn_append_cons_self, List.splitOn_eq_singleton h, List.map_append,
      List.map_singleton, String.ofList_toList]
  by_cases hempty : folder = ""
  · subst hempty
    refine ⟨[], ?_, .inr rfl⟩
    have hj : joinPath "" name = name := by simp [joinPath]
    rw [hj, List.splitOn_eq_singleton h, List.map_singleton, String.ofList_toList]
    rfl
  · by_cases hlast : folder.toList.getLast? = some '/'
    · obtain ⟨front, hfront⟩ := List.getLast?_eq_some_iff.1 hlast
      have hj : (joinPath folder name).toList = front ++ '/' :: name.toList := by
        simp [joinPath, hfront]
      have hf : (folder.toList.splitOn '/').map String.ofList =
          (front.splitOn '/').map String.ofList ++ [""] := by
        rw [hfront, List.splitOn_append_cons_self, List.map_append]
        rfl
      rw [hj, hs]
      exact ⟨_, rfl, .inr hf⟩
    · have hj : (joinPath folder name).toList = folder.toList ++ '/' :: name.toList := by
        simp [joinPath, hlast, hempty]
      rw [hj, hs]
      exact ⟨_, rfl, .inl rfl⟩

theorem utf8ByteSize_le_joinPath (folder name : String) :
    folder.utf8ByteSize ≤ (joinPath folder name).utf8ByteSize := by
  rw [joinPath]
  split
  · rw [String.utf8ByteSize_append]
    omega
  · rw [String.utf8ByteSize_append, String.utf8ByteSize_append]
    omega

theorem locate_joinPath {folder : String} (hn : PlainName name)
    (h : tree.locate (joinPath folder name) = .ok place) :
    ∃ here, tree.locate folder = .ok here ∧ place = here ++ [name] := by
  obtain ⟨hlong, hw⟩ := locate_eq_ok.1 h
  have hsize := utf8ByteSize_le_joinPath folder name
  obtain ⟨names, hj, hf⟩ := splitOn_joinPath folder hn.separator
  rw [hj] at hw
  obtain ⟨here, hhere, hw⟩ := walk_append hw
  obtain ⟨hfolder, next, hnext, hw⟩ := walk_cons_eq_ok.1 hw
  obtain rfl := Except.ok.inj hw
  refine ⟨here, locate_eq_ok.2 ⟨by omega, ?_⟩, ?_⟩
  · obtain hf | hf := hf
    · rw [hf]
      exact hhere
    · rw [hf]
      exact walk_append_empty hhere hfolder
  · rw [enter?, if_neg (not_or.2 ⟨hn.ne_empty, hn.ne_dot⟩), if_neg hn.ne_dots] at hnext
    split at hnext
    · cases hnext
    · exact (Option.some.inj hnext).symm

theorem prefix_of_mem_pathsToward {other : String} (h : other ∈ pathsToward path) :
    other.toList <+: path.toList := by
  rw [pathsToward] at h
  obtain ⟨entry, -, h⟩ := List.mem_filterMap.1 h
  obtain ⟨step, n⟩ := entry
  dsimp only at h
  split at h
  · cases h
  · obtain rfl := Option.some.inj h
    have hs : (path.toList.splitOn '/').map (String.toList ∘ String.ofList) =
        path.toList.splitOn '/' := by
      simp [Function.comp_def]
    rw [String.toList_intercalate, List.map_take, List.map_map, hs]
    have hp := Lists.intercalate_take_prefix ['/'] (path.toList.splitOn '/') (n + 1)
    rw [List.intercalate_splitOn] at hp
    exact hp

/-! ## Operations -/

variable {content : ByteArray}

theorem ne_nil_of_not_folder (hi : tree.item? place ≠ some .folder) : place ≠ [] := by
  intro hp
  subst hp
  exact hi rfl

theorem item?_put_of_not_folder (item : Item) (hi : tree.item? place ≠ some .folder)
    (other : Place) :
    (tree.put place item).item? other = if place = other then some item else tree.item? other := by
  rw [item?_put]
  by_cases hother : other = []
  · rw [if_pos hother, if_neg (fun he => ne_nil_of_not_folder hi (he.trans hother)), hother]
    rfl
  · rw [if_neg hother]

theorem item?_remove_of_not_folder (hi : tree.item? place ≠ some .folder) (other : Place) :
    (tree.remove place).item? other = if place = other then none else tree.item? other := by
  rw [item?_remove]
  by_cases hother : other = []
  · rw [if_pos hother, if_neg (fun he => ne_nil_of_not_folder hi (he.trans hother)), hother]
    rfl
  · rw [if_neg hother]

theorem makeFolder_eq_ok :
    tree.makeFolder path = .ok after ↔
      ∃ place, tree.locate path = .ok place ∧ tree.item? place = none ∧
        after = tree.put place .folder := by
  rw [makeFolder, bind_eq_ok]
  refine exists_congr fun place => and_congr_right fun _ => ?_
  cases tree.item? place with
  | none => simp [eq_comm]
  | some item => simp

theorem write_eq_ok :
    tree.write path content = .ok after ↔
      ∃ place, tree.locate path = .ok place ∧ tree.item? place ≠ some .folder ∧
        after = tree.put place (.file content) := by
  rw [write, bind_eq_ok]
  refine exists_congr fun place => and_congr_right fun _ => ?_
  cases tree.item? place with
  | none => simp [eq_comm]
  | some item =>
    cases item with
    | folder => simp
    | file old => simp [eq_comm]

theorem exists_of_rename {source target : String} (h : tree.rename source target = .ok after) :
    ∃ first last content, tree.locate source = .ok first ∧ tree.locate target = .ok last ∧
      tree.item? first = some (.file content) ∧ tree.item? last ≠ some .folder ∧
      after = (tree.remove first).put last (.file content) := by
  obtain ⟨first, hfirst, h⟩ := bind_eq_ok.1 h
  obtain ⟨last, hlast, h⟩ := bind_eq_ok.1 h
  split at h
  · cases h
  · cases h
  · cases h
  · next content hi hl =>
    exact ⟨first, last, content, hfirst, hlast, hi, hl, (Except.ok.inj h).symm⟩

theorem removeFile_cases (tree : FileTree) (path : String) :
    tree.removeFile path = tree ∨
      ∃ place content, tree.locate path = .ok place ∧ tree.item? place = some (.file content) ∧
        tree.removeFile path = tree.remove place := by
  rw [removeFile]
  split
  · exact .inl rfl
  · next place hplace =>
    split
    · next content hi => exact .inr ⟨place, content, hplace, hi, rfl⟩
    · exact .inl rfl

/-! ## New folders -/

/-- The second tree is the first one, but for new folders at places that some of the paths lead
to. -/
def Grown (paths : List String) (tree after : FileTree) : Prop :=
  ∀ place, after.item? place = tree.item? place ∨
    (tree.item? place = none ∧ after.item? place = some .folder ∧
      ∃ path ∈ paths, after.locate path = .ok place)

variable {paths : List String}

theorem Grown.refl (paths : List String) (tree : FileTree) : Grown paths tree tree :=
  fun _ => .inl rfl

theorem Grown.keepsFolders (h : Grown paths tree after) : tree.KeepsFolders after := by
  intro place hf
  obtain hp | ⟨hnone, -⟩ := h place
  · rw [hp, hf]
  · rw [hf] at hnone
    cases hnone

theorem Grown.mono {more : List String} (h : Grown paths tree after)
    (hs : ∀ path ∈ paths, path ∈ more) :
    Grown more tree after := by
  intro place
  obtain hp | ⟨hnone, hf, path, hpath, hl⟩ := h place
  · exact .inl hp
  · exact .inr ⟨hnone, hf, path, hs path hpath, hl⟩

theorem Grown.trans {last : FileTree} (h : Grown paths tree after) (hl : Grown paths after last) :
    Grown paths tree last := by
  intro place
  obtain hp | ⟨hnone, hf, hpath⟩ := hl place
  · rw [hp]
    obtain hq | ⟨hnone, hf, path, hpath, hloc⟩ := h place
    · exact .inl hq
    · exact .inr ⟨hnone, hf, path, hpath, locate_mono hl.keepsFolders hloc⟩
  · obtain hq | ⟨-, hfolder, -⟩ := h place
    · exact .inr ⟨hq.symm.trans hnone, hf, hpath⟩
    · rw [hfolder] at hnone
      cases hnone

theorem keepsFolders_put (item : Item) (hi : tree.item? place ≠ some .folder) :
    tree.KeepsFolders (tree.put place item) := by
  intro other hf
  have hne : place ≠ other := by
    intro he
    rw [he] at hi
    exact hi hf
  rw [item?_put_of_not_folder item hi, if_neg hne, hf]

theorem keepsFolders_remove (hi : tree.item? place ≠ some .folder) :
    tree.KeepsFolders (tree.remove place) := by
  intro other hf
  have hne : place ≠ other := by
    intro he
    rw [he] at hi
    exact hi hf
  rw [item?_remove_of_not_folder hi, if_neg hne, hf]

theorem grown_of_makeFolder (h : tree.makeFolder path = .ok after) : Grown [path] tree after := by
  obtain ⟨place, hl, hi, rfl⟩ := makeFolder_eq_ok.1 h
  have hi' : tree.item? place ≠ some .folder := by
    rw [hi]
    exact nofun
  intro other
  rw [item?_put_of_not_folder .folder hi']
  by_cases he : place = other
  · subst he
    exact .inr ⟨hi, if_pos rfl, path, List.mem_singleton_self path,
      locate_mono (keepsFolders_put .folder hi') hl⟩
  · exact .inl (if_neg he)

end FileTree
end SlogHelpers.Command
