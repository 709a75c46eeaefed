import SlogHelpers.Proofs.Command.Saving
import SlogHelpers.Proofs.Source.Identifier
import SlogHelpers.Proofs.Source.Validity

/-!
A command leaves all files as they were, or it writes one: the source of its package, complete, in
the folder of the package. Which operations fail does not matter.
-/
namespace SlogHelpers.Command
open FileTree Fallible

/-! ## Places in the folder of a package -/

section Places

variable {tree : FileTree} {place : Place} {base package name : String}

theorem plainName_append (suffix : String) (h : Source.isIdentifier package = true)
    (hs : '/' ∉ suffix.toList) :
    PlainName (package ++ suffix) := by
  have hslash : '/' ∉ package.toList := Source.not_mem_of_isIdentifier h (by decide)
  have hdot : '.' ∉ package.toList := Source.not_mem_of_isIdentifier h (by decide)
  have hlist : (package ++ suffix).toList = package.toList ++ suffix.toList := String.toList_append
  cases hp : package.toList with
  | nil =>
    rw [Source.isIdentifier, hp] at h
    cases h
  | cons c rest =>
    rw [hp] at hdot hlist
    have hc : c ≠ '.' := fun he => hdot (he ▸ List.mem_cons_self)
    refine ⟨?_, ?_, ?_, ?_⟩
    · rw [hlist, ← hp]
      exact fun hm => (List.mem_append.1 hm).elim hslash hs
    all_goals
      intro he
      rw [he] at hlist
      simp at hlist
    · exact hc hlist.1.symm
    · exact hc hlist.1.symm

theorem plainName_of_isIdentifier (h : Source.isIdentifier package = true) : PlainName package := by
  have he := plainName_append "" h (by decide)
  rwa [String.append_empty] at he

theorem locate_in_package (hp : PlainName package) (hn : PlainName name)
    (h : tree.locate (joinPath (joinPath base package) name) = .ok place) :
    ∃ here, tree.locate base = .ok here ∧ place = here ++ [package, name] := by
  obtain ⟨folder, hfolder, rfl⟩ := locate_joinPath hn h
  obtain ⟨here, hhere, rfl⟩ := locate_joinPath hp hfolder
  exact ⟨here, hhere, List.append_assoc _ _ _⟩

theorem joinPath_append (folder name more : String) :
    joinPath folder name ++ more = joinPath folder (name ++ more) := by
  rw [joinPath, joinPath]
  split
  · exact String.append_assoc
  · exact String.append_assoc

/-- The place of a file that is named after its package, from the place that the base directory
has. -/
def packagePlace (here : Place) (package suffix : String) : Place :=
  here ++ [package, package ++ suffix]

theorem locate_output (h : Source.isIdentifier package = true)
    (hl : tree.locate (outputPath base package) = .ok place) :
    ∃ here, tree.locate base = .ok here ∧ place = packagePlace here package ".go" := by
  exact locate_in_package (plainName_of_isIdentifier h) (plainName_append _ h (by decide)) hl

theorem locate_temporary (h : Source.isIdentifier package = true)
    (hl : tree.locate (outputPath base package ++ ".tmp") = .ok place) :
    ∃ here, tree.locate base = .ok here ∧ place = packagePlace here package ".go.tmp" := by
  rw [outputPath, joinPath_append, String.append_assoc] at hl
  exact locate_in_package (plainName_of_isIdentifier h) (plainName_append _ h (by decide)) hl

theorem packagePlace_ne (here : Place) (package : String) :
    packagePlace here package ".go" ≠ packagePlace here package ".go.tmp" := by
  intro he
  have hs := List.append_cancel_left he
  simp at hs

theorem apart_output (h : Source.isIdentifier package = true) :
    Apart (outputPath base package) (outputPath base package ++ ".tmp") := by
  intro tree place hl hl'
  obtain ⟨here, hhere, hplace⟩ := locate_output h hl
  obtain ⟨here', hhere', hplace'⟩ := locate_temporary h hl'
  obtain rfl := Except.ok.inj (hhere.symm.trans hhere')
  exact packagePlace_ne here package (hplace.symm.trans hplace')

end Places

/-! ## A run of the command -/

variable {σ : Type} {host : Host (StateM σ)} {files : σ → FileTree}

/-- The arguments lead to a vocabulary and to its source as it is to be written, and the host to a
state. -/
def Rendered (host : Host (StateM σ)) (a : Arguments) (s : σ) (v : Vocabulary) (final : String)
    (s' : σ) : Prop :=
  ∃ document source s₁, (givenDocument host a).run s = (.ok document, s₁) ∧
    load document a.options = .ok v ∧
    emitFile v = .ok source ∧ formatted host a source s₁ = (.ok final, s')

theorem Host.Keeps.loadDocument_kept (hk : host.Keeps files) (path : String)
    (format : Option DocumentSyntax) (s : σ) :
    files ((loadDocument host path format).run s).2 = files s := by
  rw [loadDocument]
  split
  · refine run_bind_kept (hk.input s) fun bytes s' => ?_
    exact run_bind_kept rfl fun text s' => rfl
  · refine run_bind_kept rfl fun written s' => ?_
    refine run_bind_kept (hk.readFile path s') fun found s' => ?_
    refine run_bind_kept rfl fun bytes s' => ?_
    exact run_bind_kept rfl fun text s' => rfl

theorem Host.Keeps.givenDocument_kept (hk : host.Keeps files) (a : Arguments) (s : σ) :
    files ((givenDocument host a).run s).2 = files s := by
  rw [givenDocument]
  cases a.config with
  | none => rfl
  | some path => exact run_bind_kept (hk.loadDocument_kept path a.format s) fun document s' => rfl

theorem Host.Keeps.formatted_kept (hk : host.Keeps files) (a : Arguments)
    (source : String) (s : σ) :
    files (formatted host a source s).2 = files s := by
  rw [formatted]
  split
  · exact hk.runFormatter "gofmt" source s
  · rfl

theorem Host.Keeps.rendered_kept (hk : host.Keeps files) {a : Arguments} {s s' : σ} {v : Vocabulary}
    {final : String} (h : Rendered host a s v final s') : files s' = files s := by
  obtain ⟨document, source, s₁, hdoc, -, -, hformat⟩ := h
  have hread := hk.givenDocument_kept a s
  have hkept := hk.formatted_kept a source s₁
  rw [hdoc] at hread
  rw [hformat] at hkept
  exact hkept.trans hread

/-- The command changes nothing, or it comes to saving a source. -/
theorem Host.Keeps.run_cases (hk : host.Keeps files) (a : Arguments) (s : σ) :
    (files ((run host a).run s).2 = files s ∧
        (a.stdout = true ∨ a.dumpModel = true ∨ ∃ fault, ((run host a).run s).1 = .error fault)) ∨
      ∃ v final s', a.stdout = false ∧ a.dumpModel = false ∧ Rendered host a s v final s' ∧
        (run host a).run s = ((save host a.baseDirectory v.package final s').1.map fun _ => "",
          (save host a.baseDirectory v.package final s').2) := by
  have hread := hk.givenDocument_kept a s
  rw [run]
  obtain ⟨fault, s₁, hdoc⟩ | ⟨document, s₁, hdoc⟩ := ran_cases (givenDocument host a) s
  · rw [hdoc] at hread
    rw [run_bind_of_error hdoc]
    exact .inl ⟨hread, .inr (.inr ⟨fault, rfl⟩)⟩
  rw [hdoc] at hread
  rw [run_bind_of_ok hdoc]
  obtain ⟨fault, hload⟩ | ⟨v, hload⟩ := ok_or_error (load document a.options)
  · rw [run_bind_mapError_of_error hload]
    exact .inl ⟨hread, .inr (.inr ⟨.generate fault, rfl⟩)⟩
  rw [run_bind_mapError_of_ok hload]
  by_cases hdump : a.dumpModel = true
  · rw [if_pos hdump]
    exact .inl ⟨hread, .inr (.inl hdump)⟩
  rw [if_neg hdump]
  obtain ⟨fault, hemit⟩ | ⟨source, hemit⟩ := ok_or_error (emitFile v)
  · rw [run_bind_mapError_of_error hemit]
    exact .inl ⟨hread, .inr (.inr ⟨.generate fault, rfl⟩)⟩
  rw [run_bind_mapError_of_ok hemit]
  have hkept := hk.formatted_kept a source s₁
  obtain ⟨fault, s₂, hformat⟩ | ⟨final, s₂, hformat⟩ :=
    ran_cases (ExceptT.mk (formatted host a source)) s₁
  · rw [run_bind_of_error hformat]
    rw [show formatted host a source s₁ = _ from hformat] at hkept
    exact .inl ⟨hkept.trans hread, .inr (.inr ⟨fault, rfl⟩)⟩
  rw [run_bind_of_ok hformat]
  rw [show formatted host a source s₁ = _ from hformat] at hkept
  by_cases hout : a.stdout = true
  · rw [if_pos hout]
    exact .inl ⟨hkept.trans hread, .inl hout⟩
  rw [if_neg hout]
  have hrendered : Rendered host a s v final s₂ :=
    ⟨document, source, s₁, hdoc, hload, hemit, hformat⟩
  refine .inr ⟨v, final, s₂, by simpa using hout, by simpa using hdump, hrendered, ?_⟩
  obtain ⟨fault, s₃, hsave⟩ | ⟨saved, s₃, hsave⟩ :=
    ran_cases (ExceptT.mk (save host a.baseDirectory v.package final)) s₂
  · rw [run_bind_of_error hsave, show save host a.baseDirectory v.package final s₂ = _ from hsave]
    rfl
  · rw [run_bind_of_ok hsave, show save host a.baseDirectory v.package final s₂ = _ from hsave]
    rfl

/-! ## What it changes -/

def MadeFolder (base package : String) (tree after : FileTree) (place : Place) : Prop :=
  tree.item? place = none ∧ after.item? place = some .folder ∧
    ∃ path : String, path.toList <+: (joinPath base package).toList ∧ after.locate path = .ok place

def TemporaryGone (base package : String) (tree after : FileTree) (place : Place) : Prop :=
  (∃ content, tree.item? place = some (.file content)) ∧ after.item? place = none ∧
    ∃ here, after.locate base = .ok here ∧ place = packagePlace here package ".go.tmp"

structure AllOrNothing (host : Host (StateM σ)) (files : σ → FileTree) (a : Arguments) (s : σ)
    (after : FileTree) (result : Except CommandFault String) : Prop where
  before : ∀ v final s', Rendered host a s v final s' → files s' = files s
  /-- Files are touched only once a source is complete that is to be written, and by names without
  separators and dots. -/
  touched : after ≠ files s → a.stdout = false ∧ a.dumpModel = false ∧
    ∃ v final s', Rendered host a s v final s' ∧
      Source.isPackageName v.package = true ∧ '/' ∉ v.package.toList ∧ '.' ∉ v.package.toList
  failed : ∀ fault, result = .error fault → ∀ place, after.item? place = (files s).item? place ∨
    ∃ v final s', Rendered host a s v final s' ∧
      (MadeFolder a.baseDirectory v.package (files s) after place ∨
      TemporaryGone a.baseDirectory v.package (files s) after place)
  saved : ∀ output, result = .ok output → a.stdout = false → a.dumpModel = false →
    ∃ v final s' here, Rendered host a s v final s' ∧ after.locate a.baseDirectory = .ok here ∧
      after.locate (outputPath a.baseDirectory v.package) =
        .ok (packagePlace here v.package ".go") ∧
      (files s).item? (packagePlace here v.package ".go") ≠ some .folder ∧
      after.item? (packagePlace here v.package ".go") = some (.file final.toUTF8) ∧
      (files s).item? (packagePlace here v.package ".go.tmp") ≠ some .folder ∧
      after.item? (packagePlace here v.package ".go.tmp") = none ∧
      ∀ place, place ≠ packagePlace here v.package ".go" →
        place ≠ packagePlace here v.package ".go.tmp" →
        after.item? place = (files s).item? place ∨
          MadeFolder a.baseDirectory v.package (files s) after place

theorem isPackageName_of_rendered {a : Arguments} {s s' : σ} {v : Vocabulary} {final : String}
    (h : Rendered host a s v final s') : Source.isPackageName v.package = true := by
  obtain ⟨document, source, s₁, -, -, hemit, -⟩ := h
  cases he : Source.emit v with
  | error fault =>
    rw [emitFile, he] at hemit
    cases hemit
  | ok text =>
    have hv := ((Source.emit_eq_ok v).1 he).1.package
    simp [Source.isPackageName, hv.1, hv.2]

variable {tree grown after : FileTree} {base package : String}

theorem madeFolder_of_grown {place : Place}
    (hg : Grown (pathsToward (joinPath base package)) tree grown) (hk : grown.KeepsFolders after)
    (h : after.item? place = grown.item? place) :
    after.item? place = tree.item? place ∨ MadeFolder base package tree after place := by
  obtain hp | ⟨hnone, hfolder, path, hpath, hl⟩ := hg place
  · exact .inl (h.trans hp)
  · exact .inr ⟨hnone, h.trans hfolder, path, prefix_of_mem_pathsToward hpath, locate_mono hk hl⟩

theorem temporaryGone_of_discarded (h : Source.isIdentifier package = true)
    (hg : Grown (pathsToward (joinPath base package)) tree grown)
    (hd : Discarded (outputPath base package ++ ".tmp") grown after) (place : Place) :
    after.item? place = tree.item? place ∨ MadeFolder base package tree after place ∨
      TemporaryGone base package tree after place := by
  obtain hp | ⟨hl, ⟨content, hfile⟩, hnone⟩ := hd place
  · obtain hkept | hmade := madeFolder_of_grown hg hd.keepsFolders hp
    · exact .inl hkept
    · exact .inr (.inl hmade)
  · obtain hq | ⟨-, hfolder, -⟩ := hg place
    · exact .inr (.inr ⟨⟨content, hq ▸ hfile⟩, hnone, locate_temporary h hl⟩)
    · rw [hfolder] at hfile
      cases hfile

theorem saved_of_replaced {content : ByteArray} (h : Source.isIdentifier package = true)
    (hg : Grown (pathsToward (joinPath base package)) tree grown)
    (hr : Replaced (outputPath base package)
      (outputPath base package ++ ".tmp") content grown after) :
    ∃ here, after.locate base = .ok here ∧
      after.locate (outputPath base package) = .ok (packagePlace here package ".go") ∧
      tree.item? (packagePlace here package ".go") ≠ some .folder ∧
      after.item? (packagePlace here package ".go") = some (.file content) ∧
      tree.item? (packagePlace here package ".go.tmp") ≠ some .folder ∧
      after.item? (packagePlace here package ".go.tmp") = none ∧
      ∀ place, place ≠ packagePlace here package ".go" →
        place ≠ packagePlace here package ".go.tmp" →
        after.item? place = tree.item? place ∨ MadeFolder base package tree after place := by
  have hfolders := hg.keepsFolders
  have hmade := Replaced.keepsFolders hr
  obtain ⟨target, temporary, hl, hl', htarget, hfile, htemporary, hgone, hothers⟩ := hr
  obtain ⟨here, hhere, rfl⟩ := locate_output h hl
  obtain ⟨here', hhere', rfl⟩ := locate_temporary h hl'
  obtain rfl := Except.ok.inj (hhere.symm.trans hhere')
  exact ⟨here, hhere, hl, fun h => htarget (hfolders _ h), hfile,
    fun h => htemporary (hfolders _ h), hgone,
    fun place hne hne' => madeFolder_of_grown hg hmade (hothers place hne hne')⟩

theorem run_allOrNothing (hk : host.Keeps files) (a : Arguments) (s : σ) :
    AllOrNothing host files a s (files ((run host a).run s).2) ((run host a).run s).1 := by
  have hbefore : ∀ v final s', Rendered host a s v final s' → files s' = files s :=
    fun v final s' h => hk.rendered_kept h
  obtain ⟨hkept, hwhy⟩ | ⟨v, final, s', hout, hdump, hrendered, hrun⟩ := hk.run_cases a s
  · refine ⟨hbefore, fun hne => absurd hkept hne, fun fault hf place => .inl (by rw [hkept]), ?_⟩
    intro output hok hout hdump
    obtain hw | hw | ⟨fault, hw⟩ := hwhy
    · rw [hout] at hw
      cases hw
    · rw [hdump] at hw
      cases hw
    · rw [hok] at hw
      cases hw
  have hname := isPackageName_of_rendered hrendered
  have hident : Source.isIdentifier v.package = true := (Bool.and_eq_true_iff.1 hname).1
  obtain ⟨grown, hgrown, hsaved⟩ := hk.save_outcome final (apart_output hident) s'
  rw [hk.rendered_kept hrendered] at hgrown
  rw [hrun]
  dsimp only
  generalize files (save host a.baseDirectory v.package final s').2 = after at hsaved ⊢
  generalize (save host a.baseDirectory v.package final s').1 = result at hsaved ⊢
  refine ⟨hbefore, fun _ => ⟨hout, hdump, v, final, s', hrendered, hname, ?_, ?_⟩, ?_, ?_⟩
  · exact Source.not_mem_of_isIdentifier hident (by decide)
  · exact Source.not_mem_of_isIdentifier hident (by decide)
  · intro fault hf place
    cases result with
    | ok done => cases hf
    | error failure =>
      obtain hkept | hchanged := temporaryGone_of_discarded hident hgrown hsaved place
      · exact .inl hkept
      · exact .inr ⟨v, final, s', hrendered, hchanged⟩
  · intro output hok _ _
    cases result with
    | error failure => cases hok
    | ok done =>
      obtain ⟨here, hplaces⟩ := saved_of_replaced hident hgrown hsaved
      exact ⟨v, final, s', here, hrendered, hplaces⟩

/-- A package with a folder where its file belongs, and a file beside it. -/
def folderAtOutput : FileTree :=
  ⟨[(["slogx"], .folder), (["slogx", "slogx.go"], .folder),
    (["slogx", "slogx.go.tmp"], .file ByteArray.empty)]⟩

def filesOnly : Host (StateM FileTree) :=
  FileTree.host ByteArray.empty fun _ _ => .notStarted "no formatter"

set_option maxRecDepth 10000 in
theorem run_allOrNothing_folderAtOutput :
    AllOrNothing filesOnly id {} folderAtOutput ((run filesOnly {}).run folderAtOutput).2
        ((run filesOnly {}).run folderAtOutput).1 ∧
      ((run filesOnly {}).run folderAtOutput).2.entries.map (·.1) =
        [["slogx"], ["slogx", "slogx.go"]] := by
  have h := run_allOrNothing
      (FileTree.host_keeps ByteArray.empty fun _ _ => .notStarted "no formatter") {} folderAtOutput
  exact ⟨h, by decide +kernel⟩

end SlogHelpers.Command
