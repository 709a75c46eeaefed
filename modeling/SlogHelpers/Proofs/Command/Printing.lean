import SlogHelpers.Proofs.Command.AllOrNothing
import SlogHelpers.Proofs.Source.Layout

/-!
What is printed is what would be saved. Printing drops line breaks at the end of a source and puts
one there, and saving does neither, so the two agree because every source ends in one line break.
-/
namespace SlogHelpers.Command
open FileTree Fallible

theorem printedLines_of_endsOnce {text : String} (h : Source.EndsOnce text.toList) :
    printedLines text = text := by
  obtain ⟨front, c, htext, hc⟩ := h
  have hbreak : (c == '\n') = false := beq_false_of_ne hc
  have hdrop : Text.dropTrailing (· == '\n') text.toList = front ++ [c] := by
    rw [htext, Text.dropTrailing, List.reverse_append]
    simp [hbreak]
  apply String.toList_injective
  rw [printedLines, hdrop, htext, String.toList_append, String.toList_ofList, List.append_assoc]
  rfl

variable {σ : Type} {host : Host (StateM σ)} {files : σ → FileTree} {a : Arguments} {s s' : σ}
  {v : Vocabulary} {final : String}

theorem generate_eq_ok {document : Option WrittenDocument} {options : Options} {source : String} :
    generate document options = .ok source ↔
      ∃ v, load document options = .ok v ∧ emitFile v = .ok source :=
  bind_eq_ok

theorem endsOnce_of_emitFile {source : String} (h : emitFile v = .ok source) :
    Source.EndsOnce source.toList := by
  rw [emitFile, mapError_eq_ok] at h
  exact Source.endsOnce_of_emit h

theorem formatted_of_no_gofmt (h : a.gofmt = false) (source : String) (s : σ) :
    formatted host a source s = (.ok source, s) := by
  rw [formatted, h]
  rfl

theorem read_of_item {tree : FileTree} {path : String} {place : Place} {content : ByteArray}
    (hl : tree.locate path = .ok place) (hi : tree.item? place = some (.file content)) :
    tree.read path = .ok content := by
  rw [FileTree.read, hl]
  simp only [bind, Except.bind, hi]

theorem run_of_rendered (hout : a.stdout = true) (hdump : a.dumpModel = false)
    (h : Rendered host a s v final s') :
    (run host a).run s = (.ok (printedLines final), s') := by
  obtain ⟨document, source, s₁, hdocument, hload, hemit, hformat⟩ := h
  have hformat : (ExceptT.mk (formatted host a source)).run s₁ = (.ok final, s') := hformat
  rw [run, run_bind_of_ok hdocument, run_bind_mapError_of_ok hload, if_neg (by simp [hdump]),
    run_bind_mapError_of_ok hemit, run_bind_of_ok hformat, if_pos hout]
  rfl

theorem replaced_of_run_eq_ok (hk : host.Keeps files) (hout : a.stdout = false)
    (hdump : a.dumpModel = false) {output : String} (h : (run host a).run s = (.ok output, s')) :
    ∃ v final s₁ grown, Rendered host a s v final s₁ ∧
      Replaced (outputPath a.baseDirectory v.package)
        (outputPath a.baseDirectory v.package ++ ".tmp")
        final.toUTF8 grown (files s') := by
  obtain ⟨-, hwhy⟩ | ⟨v, final, s₁, -, -, hrendered, hrun⟩ := hk.run_cases a s
  · simp [h, hout, hdump] at hwhy
  have hname := isPackageName_of_rendered hrendered
  have hapart : Apart (outputPath a.baseDirectory v.package)
      (outputPath a.baseDirectory v.package ++ ".tmp") :=
    apart_output (Bool.and_eq_true_iff.1 hname).1
  obtain ⟨grown, -, hsaved⟩ := hk.save_outcome final hapart s₁
  rw [h] at hrun
  obtain ⟨hresult, rfl⟩ := Prod.mk.inj hrun
  cases hs : (save host a.baseDirectory v.package final s₁).1 with
  | error failure =>
    rw [hs] at hresult
    cases hresult
  | ok done =>
    rw [hs] at hsaved
    exact ⟨v, final, s₁, grown, hrendered, hsaved⟩

/-- Where saving the source succeeds, printing it does as well and shows what is saved, which is the
source of the document and the options. -/
theorem printed_eq_saved (hk : host.Keeps files) (hgofmt : a.gofmt = false)
    (hdump : a.dumpModel = false)
    {output : String} (h : (run host { a with stdout := false }).run s = (.ok output, s')) :
    ∃ document source v s₁, (givenDocument host a).run s = (.ok document, s₁) ∧
      load document a.options = .ok v ∧ generate document a.options = .ok source ∧
      (run host { a with stdout := true }).run s = (.ok source, s₁) ∧ files s₁ = files s ∧
      (files s').read (outputPath a.baseDirectory v.package) = .ok source.toUTF8 := by
  obtain ⟨v, final, s₁, grown, hrendered, target, temporary, hlocate, -, -, hfile, -⟩ :=
    replaced_of_run_eq_ok (a := { a with stdout := false }) hk rfl hdump h
  -- Up to its output the command does not depend on whether it prints or saves.
  have hprinted := run_of_rendered (a := { a with stdout := true }) rfl hdump hrendered
  have hkept := hk.rendered_kept hrendered
  obtain ⟨document, source, s₂, hdocument, hload, hemit, hformat⟩ := hrendered
  rw [formatted_of_no_gofmt (a := { a with stdout := false }) hgofmt] at hformat
  cases hformat
  rw [printedLines_of_endsOnce (endsOnce_of_emitFile hemit)] at hprinted
  exact ⟨document, final, v, s₁, hdocument, hload, generate_eq_ok.2 ⟨v, hload, hemit⟩,
    hprinted, hkept, read_of_item hlocate hfile⟩

/-- Arguments for an attribute with a line break in the tag of its type. -/
def brokenTag : Arguments where
  outputDir := some "out"
  options := { attributes := ["id:struct\x7b V any \x60a\nb\x60 \x7d"] }

theorem printed_eq_saved_brokenTag :
    ∃ output after, (run filesOnly { brokenTag with stdout := false }).run {} =
      (.ok output, after) ∧
      ∃ document source v, (givenDocument filesOnly brokenTag).run {} = (.ok document, {}) ∧
        load document brokenTag.options = .ok v ∧ generate document brokenTag.options = .ok source ∧
        (run filesOnly { brokenTag with stdout := true }).run {} = (.ok source, {}) ∧
        after.read (outputPath "out" v.package) = .ok source.toUTF8 := by
  have hk : filesOnly.Keeps id := FileTree.host_keeps _ _
  have hok : ((run filesOnly { brokenTag with stdout := false }).run {}).1.isOk = true := by
    decide +kernel
  obtain ⟨output, ho⟩ := exists_of_isOk hok
  have hrun : (run filesOnly { brokenTag with stdout := false }).run {} = (.ok output, _) :=
    Prod.ext ho rfl
  obtain ⟨document, source, v, s₁, hdocument, hload, hgenerate, hprinted, hkept, hread⟩ :=
    printed_eq_saved hk (a := brokenTag) rfl rfl hrun
  obtain rfl : s₁ = {} := hkept
  exact ⟨output, _, hrun, document, source, v, hdocument, hload, hgenerate, hprinted, hread⟩

end SlogHelpers.Command
