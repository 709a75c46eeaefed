import SlogHelpers.Proofs.Command.FileTree

/-!
What saving a source changes, on every host that keeps a tree of files, whatever operations fail
there: new folders on the way to the package, and the file and the one beside it.
-/
namespace SlogHelpers.Command
open FileTree

/-- The host keeps a tree of files. An operation that succeeds does what it does to the tree; one
that fails leaves the tree as it is, but that a write may leave some content. What it reads is not
told. -/
structure Host.Keeps {σ : Type} (host : Host (StateM σ)) (files : σ → FileTree) : Prop where
  input (s : σ) : files (host.input s).2 = files s
  readFile (path : String) (s : σ) : files (host.readFile path s).2 = files s
  isFolder (path : String) (s : σ) : files (host.isFolder path s).2 = files s
  runFormatter (program source : String) (s : σ) :
    files (host.runFormatter program source s).2 = files s
  makeFolder {path : String} {s s' : σ} {result : Except FileFault Unit}
    (h : host.makeFolder path s = (result, s')) :
    files s' = files s ∨ (files s).makeFolder path = .ok (files s')
  writeFile {path : String} {content : ByteArray} {s s' : σ} {result : Except FileFault Unit}
    (h : host.writeFile path content s = (result, s')) :
    (result = .ok () ∧ (files s).write path content = .ok (files s')) ∨
      ∃ fault, result = .error fault ∧
        (files s' = files s ∨ ∃ left, (files s).write path left = .ok (files s'))
  rename {source target : String} {s s' : σ} {result : Except FileFault Unit}
    (h : host.rename source target s = (result, s')) :
    (result = .ok () ∧ (files s).rename source target = .ok (files s')) ∨
      ∃ fault, result = .error fault ∧ files s' = files s
  removeFile (path : String) (s : σ) : files (host.removeFile path s).2 = (files s).removeFile path

theorem FileTree.step_cases (change : FileTree → Except FileFault FileTree) {tree after : FileTree}
    {result : Except FileFault Unit} (h : step change tree = (result, after)) :
    (result = .ok () ∧ change tree = .ok after) ∨
      ∃ fault, result = .error fault ∧ after = tree := by
  rw [step] at h
  cases hc : change tree with
  | error fault =>
    rw [hc] at h
    cases h
    exact .inr ⟨fault, rfl, rfl⟩
  | ok next =>
    rw [hc] at h
    cases h
    exact .inl ⟨rfl, rfl⟩

theorem FileTree.host_keeps (input : ByteArray) (formatter : String → String → FormatterRun) :
    (FileTree.host input formatter).Keeps id where
  input _ := rfl
  readFile _ _ := rfl
  isFolder _ _ := rfl
  runFormatter _ _ _ := rfl
  removeFile _ _ := rfl
  makeFolder {path _ _ _} h := by
    obtain ⟨-, hmade⟩ | ⟨fault, -, hkept⟩ := step_cases (·.makeFolder path) h
    · exact .inr hmade
    · exact .inl hkept
  writeFile {path content _ _ _} h := by
    obtain hwritten | ⟨fault, hf, hkept⟩ := step_cases (·.write path content) h
    · exact .inl hwritten
    · exact .inr ⟨fault, hf, .inl hkept⟩
  rename {source target _ _ _} h := step_cases (·.rename source target) h

variable {σ : Type} {host : Host (StateM σ)} {files : σ → FileTree}

theorem Host.Keeps.ensureFolder_grown (hk : host.Keeps files) (path : String) (s : σ) :
    Grown [path] (files s) (files (ensureFolder host path s).2) := by
  cases hm : host.makeFolder path s with
  | mk result s' =>
    have hg : Grown [path] (files s) (files s') := by
      obtain he | hmade := hk.makeFolder hm
      · rw [he]
        exact Grown.refl _ _
      · exact grown_of_makeFolder hmade
    rw [ensureFolder]
    simp only [bind, StateT.bind, hm]
    split
    · have hi := hk.isFolder path s'
      cases hf : host.isFolder path s' with
      | mk found s'' =>
        rw [hf] at hi
        simp only [StateT.bind, bind, hf]
        split
        · exact hi ▸ hg
        · exact hi ▸ hg
    · exact hg

theorem Host.Keeps.ensureFolders_grown (hk : host.Keeps files) (paths : List String) (s : σ) :
    Grown paths (files s) (files (ensureFolders host paths s).2) := by
  induction paths generalizing s with
  | nil => exact Grown.refl _ _
  | cons path outer ih =>
    have hpath : ∀ p ∈ [path], p ∈ path :: outer := by simp
    have houter : ∀ p ∈ outer, p ∈ path :: outer := fun p hp => List.mem_cons_of_mem _ hp
    have hfirst := hk.ensureFolder_grown path s
    cases he : ensureFolder host path s with
    | mk result s' =>
      rw [he] at hfirst
      rw [ensureFolders]
      simp only [bind, StateT.bind, he]
      split
      · have hrest := ih s'
        cases ho : ensureFolders host outer s' with
        | mk found s'' =>
          rw [ho] at hrest
          simp only [StateT.bind, bind, ho]
          have hboth := (hfirst.mono hpath).trans (hrest.mono houter)
          split
          · exact hboth.trans ((hk.ensureFolder_grown path s'').mono hpath)
          · exact hboth
      · exact hfirst.mono hpath

/-! ## The file and the one beside it -/

/-- The second tree is the first one, but for a file that may be gone from the place of the path. -/
def Discarded (path : String) (tree after : FileTree) : Prop :=
  ∀ place, after.item? place = tree.item? place ∨
    (after.locate path = .ok place ∧ (∃ content, tree.item? place = some (.file content)) ∧
      after.item? place = none)

/-- The second tree is the first one, but for a file with that content at the place of one path, and
none at that of the other. -/
def Replaced (path beside : String) (content : ByteArray) (tree after : FileTree) : Prop :=
  ∃ target temporary, after.locate path = .ok target ∧ after.locate beside = .ok temporary ∧
    tree.item? target ≠ some .folder ∧ after.item? target = some (.file content) ∧
    tree.item? temporary ≠ some .folder ∧ after.item? temporary = none ∧
    ∀ place, place ≠ target → place ≠ temporary → after.item? place = tree.item? place

variable {tree middle after : FileTree} {path beside : String} {content : ByteArray}

theorem Discarded.refl (path : String) (tree : FileTree) : Discarded path tree tree :=
  fun _ => .inl rfl

theorem Discarded.keepsFolders (h : Discarded path tree after) : tree.KeepsFolders after := by
  intro place hf
  obtain hp | ⟨-, ⟨old, hold⟩, -⟩ := h place
  · rw [hp, hf]
  · rw [hf] at hold
    cases hold

theorem Replaced.keepsFolders (h : Replaced path beside content tree after) :
    tree.KeepsFolders after := by
  obtain ⟨target, temporary, -, -, htarget, -, htemporary, -, hothers⟩ := h
  intro place hf
  have hne : place ≠ target := by
    intro he
    rw [he] at hf
    exact htarget hf
  have hne' : place ≠ temporary := by
    intro he
    rw [he] at hf
    exact htemporary hf
  rw [hothers place hne hne', hf]

theorem discarded_removeFile (tree : FileTree) (path : String) :
    Discarded path tree (tree.removeFile path) := by
  intro place
  obtain he | ⟨other, content, hl, hi, he⟩ := removeFile_cases tree path
  · exact .inl (by rw [he])
  · have hf : tree.item? other ≠ some .folder := by
      rw [hi]
      exact nofun
    rw [he, item?_remove_of_not_folder hf]
    by_cases hp : other = place
    · subst hp
      exact .inr ⟨locate_mono (keepsFolders_remove hf) hl, ⟨content, hi⟩, if_pos rfl⟩
    · exact .inl (if_neg hp)

theorem not_folder_put_self (content : ByteArray) (hi : tree.item? place ≠ some .folder) :
    (tree.put place (.file content)).item? place ≠ some .folder := by
  rw [item?_put_of_not_folder (.file content) hi, if_pos rfl]
  exact nofun

theorem discarded_removeFile_of_write (h : tree.write path content = .ok middle) :
    Discarded path tree (middle.removeFile path) := by
  obtain ⟨place, hl, hi, rfl⟩ := write_eq_ok.1 h
  have hput := item?_put_of_not_folder (.file content) hi
  have hf := not_folder_put_self content hi
  have hl' := locate_mono (keepsFolders_put (.file content) hi) hl
  have hfile : (tree.put place (.file content)).item? place = some (.file content) := by
    rw [hput, if_pos rfl]
  have hr : (tree.put place (.file content)).removeFile path =
      (tree.put place (.file content)).remove place := by
    simp only [removeFile, hl', hfile]
  intro other
  rw [hr, item?_remove_of_not_folder hf, hput]
  by_cases he : place = other
  · subst he
    rw [if_pos rfl]
    cases ho : tree.item? place with
    | none => exact .inl rfl
    | some item =>
      cases item with
      | folder => exact absurd ho hi
      | file old => exact .inr ⟨locate_mono (keepsFolders_remove hf) hl', ⟨old, rfl⟩, rfl⟩
  · rw [if_neg he, if_neg he]
    exact .inl rfl

/-- The two paths lead to two places. -/
def Apart (path beside : String) : Prop :=
  ∀ (tree : FileTree) (place : Place), tree.locate path = .ok place → tree.locate beside ≠ .ok place

theorem replaced_of_rename (hd : Apart path beside) (hw : tree.write beside content = .ok middle)
    (hr : middle.rename beside path = .ok after) : Replaced path beside content tree after := by
  obtain ⟨temporary, hl, hi, rfl⟩ := write_eq_ok.1 hw
  obtain ⟨first, target, moved, hfirst, htarget, hmoved, hnot, rfl⟩ := exists_of_rename hr
  have hput := item?_put_of_not_folder (.file content) hi
  have hf := not_folder_put_self content hi
  have hl' := locate_mono (keepsFolders_put (.file content) hi) hl
  obtain rfl : temporary = first := Except.ok.inj (hl'.symm.trans hfirst)
  rw [hput, if_pos rfl] at hmoved
  obtain rfl : content = moved := by simpa using hmoved
  have hapart : target ≠ temporary := fun he => hd _ _ htarget (he ▸ hl')
  have hremove := item?_remove_of_not_folder hf
  have hnot' :
      ((tree.put temporary (.file content)).remove temporary).item? target ≠ some .folder := by
    rw [hremove, if_neg hapart.symm]
    exact hnot
  have hafter := item?_put_of_not_folder (.file content) hnot'
  have hkept := (keepsFolders_remove hf).trans (keepsFolders_put (.file content) hnot')
  have htree : tree.item? target ≠ some .folder := by
    rw [hput, if_neg hapart.symm] at hnot
    exact hnot
  refine ⟨target, temporary, locate_mono hkept htarget, locate_mono hkept hl', htree,
    ?_, hi, ?_, ?_⟩
  · rw [hafter, if_pos rfl]
  · rw [hafter, if_neg hapart, hremove, if_pos rfl]
  · intro place htar htemp
    rw [hafter, if_neg htar.symm, hremove, if_neg htemp.symm, hput, if_neg htemp.symm]

/-! ## Saving -/

def ReplacedOrNot {ε : Type} (path : String) (content : ByteArray) (tree after : FileTree) :
    Except ε Unit → Prop
  | .ok _ => Replaced path (path ++ ".tmp") content tree after
  | .error _ => Discarded (path ++ ".tmp") tree after

theorem ReplacedOrNot.mapError {ε ε' : Type} {result : Except ε Unit} (f : ε → ε')
    (h : ReplacedOrNot path content tree after result) :
    ReplacedOrNot path content tree after (result.mapError f) := by
  cases result with
  | ok done => exact h
  | error fault => exact h

theorem Host.Keeps.replaceFile_outcome (hk : host.Keeps files) (hd : Apart path (path ++ ".tmp"))
    (content : ByteArray) (s : σ) :
    ReplacedOrNot path content (files s) (files (replaceFile host path content s).2)
      (replaceFile host path content s).1 := by
  rw [replaceFile]
  cases hw : host.writeFile (path ++ ".tmp") content s with
  | mk written s' =>
    have hremoved := hk.removeFile (path ++ ".tmp") s'
    simp only [bind, StateT.bind, hw]
    obtain ⟨rfl, hwrite⟩ | ⟨fault, rfl, hleft⟩ := hk.writeFile hw
    · cases hr : host.rename (path ++ ".tmp") path s' with
      | mk moved s'' =>
        have hgone := hk.removeFile (path ++ ".tmp") s''
        simp only [StateT.bind, bind, hr]
        obtain ⟨rfl, hrename⟩ | ⟨fault, rfl, hkept⟩ := hk.rename hr
        · exact replaced_of_rename hd hwrite hrename
        · change Discarded _ _ (files (host.removeFile (path ++ ".tmp") s'').2)
          rw [hgone, hkept]
          exact discarded_removeFile_of_write hwrite
    · change Discarded _ _ (files (host.removeFile (path ++ ".tmp") s').2)
      rw [hremoved]
      obtain hkept | ⟨left, hwrite⟩ := hleft
      · rw [hkept]
        exact discarded_removeFile _ _
      · exact discarded_removeFile_of_write hwrite

def outputPath (base package : String) : String :=
  joinPath (joinPath base package) (package ++ ".go")

variable {base package : String}

/-- Saving a source makes some folders, and then replaces the file or not. -/
theorem Host.Keeps.save_outcome (hk : host.Keeps files) (source : String)
    (hd : Apart (outputPath base package) (outputPath base package ++ ".tmp")) (s : σ) :
    ∃ grown, Grown (pathsToward (joinPath base package)) (files s) grown ∧
      ReplacedOrNot (outputPath base package) source.toUTF8 grown
        (files (save host base package source s).2)
        (save host base package source s).1 := by
  have hgrown := hk.ensureFolders_grown (pathsToward (joinPath base package)) s
  cases he : ensureFolders host (pathsToward (joinPath base package)) s with
  | mk made s' =>
    rw [he] at hgrown
    refine ⟨files s', hgrown, ?_⟩
    rw [save]
    simp only [bind, StateT.bind, he]
    cases made with
    | error fault => exact Discarded.refl _ _
    | ok done =>
      have hr := hk.replaceFile_outcome hd source.toUTF8 s'
      exact hr.mapError (CommandFault.file (outputPath base package))

end SlogHelpers.Command
