import Localization.Output.Basic
import Localization.Proofs.Dictionary.Stored
import Localization.Proofs.Results

/-!
Outputs that were written, and are rendered and written once more. Every output then stands in its file
with the contents of one of the outputs, so that a dictionary has all keys already, and a second write
changes nothing.
-/

namespace Localization.OutputFile

variable {files again : List OutputFile} {w after : Workspace}

/-- Files that were written one after the other. The path of each leads to a place that now holds the
contents of one of them, and a write of what is there changes nothing from now on. -/
structure Written (files : List OutputFile) (w after : Workspace) : Prop where
  grows : w.GrowsTo after
  places : ∀ place c, w.tree.at? place = some (.file c) →
    after.tree.at? place = some (.file c) ∨
      ∃ f ∈ files, after.tree.at? place = some (.file (.text f.contents))
  reads : ∀ f ∈ files, ∃ g ∈ files, after.readText f.path = .ok g.contents
  settled : ∀ f ∈ files, ∀ text, after.readText f.path = .ok text →
    after.save f.path text = (after, .ok ())

theorem written_of_writeAll (h : writeAll files w = (after, .ok ())) : Written files w after := by
  induction files generalizing w with
  | nil =>
      simp only [writeAll, Prod.mk.injEq, and_true] at h
      subst h
      exact ⟨.refl w, fun place c hc => .inl hc, nofun, nofun⟩
  | cons f rest ih =>
      rw [writeAll] at h
      split at h
      · simp at h
      · next middle hsave =>
          obtain ⟨place, hwrote⟩ := Workspace.exists_place_of_save hsave
          have hrest := ih h
          refine ⟨hwrote.grows.trans hrest.grows, ?_, ?_, ?_⟩
          · intro other c hc
            have hmiddle : middle.tree.at? other = some (.file c) ∨
                middle.tree.at? other = some (.file (.text f.contents)) := by
              by_cases hother : other = place
              · exact .inr (hother ▸ hwrote.file)
              · exact .inl (hwrote.others other c hc hother)
            rcases hmiddle with hkept | hnew
            · exact (hrest.places other c hkept).imp_right fun ⟨g, hg, htext⟩ =>
                ⟨g, List.mem_cons_of_mem f hg, htext⟩
            · rcases hrest.places other _ hnew with hkept | ⟨g, hg, htext⟩
              · exact .inr ⟨f, List.mem_cons_self, hkept⟩
              · exact .inr ⟨g, List.mem_cons_of_mem f hg, htext⟩
          · intro g hg
            rcases List.mem_cons.mp hg with rfl | hg
            · -- A later file may have been written to the same place.
              obtain ⟨hlocate, -⟩ := hwrote.leads after hrest.grows
              rcases hrest.places place _ hwrote.file with hkept | ⟨last, hlast, htext⟩
              · exact ⟨g, List.mem_cons_self, Workspace.readText_eq_ok_iff.mpr ⟨place, hlocate, hkept⟩⟩
              · exact ⟨last, List.mem_cons_of_mem g hlast,
                  Workspace.readText_eq_ok_iff.mpr ⟨place, hlocate, htext⟩⟩
            · obtain ⟨last, hlast, htext⟩ := hrest.reads g hg
              exact ⟨last, List.mem_cons_of_mem f hlast, htext⟩
          · intro g hg text htext
            rcases List.mem_cons.mp hg with rfl | hg
            · exact Workspace.save_again hsave hrest.grows htext
            · exact hrest.settled g hg text htext

/-- Files of which each holds what is to be written are written without a change. -/
theorem writeAll_eq_self (h : ∀ f ∈ files, w.save f.path f.contents = (w, .ok ())) :
    writeAll files w = (w, .ok ()) := by
  induction files with
  | nil => rfl
  | cons f rest ih =>
      rw [writeAll, h f List.mem_cons_self]
      exact ih fun g hg => h g (List.mem_cons_of_mem f hg)

end Localization.OutputFile

namespace Localization.OutputPlan

open OutputFile

variable {p : OutputPlan} {w after : Workspace} {path : String} {f g : OutputFile}

/-- A file holds the keys of a plan, added to some dictionary. -/
def IsMerged (p : OutputPlan) (f : OutputFile) : Prop :=
  ∃ existing, (Dictionary.merge existing p.keys p.isSorted).1.Exact ∧
    f.contents = (Dictionary.merge existing p.keys p.isSorted).1.render.toList

theorem renderDictionary_eq_ok_iff : p.renderDictionary w path = .ok f ↔
    ∃ existing, p.existing? w path = .ok existing ∧
      f = ⟨path, (Dictionary.merge existing p.keys p.isSorted).1.render.toList,
        (Dictionary.merge existing p.keys p.isSorted).2⟩ := by
  rw [renderDictionary]
  cases p.existing? w path with
  | error e => simp [bind, Except.bind]
  | ok existing => simp [bind, Except.bind, eq_comm]

theorem isMerged_of_renderDictionary (hmerges : p.merges = true)
    (hfloat : ∀ d, Dictionary.read? w path = .ok (some d) → d.hasFloat = false)
    (h : p.renderDictionary w path = .ok f) : p.IsMerged f := by
  obtain ⟨existing, hexisting, rfl⟩ := renderDictionary_eq_ok_iff.mp h
  rw [existing?, if_pos hmerges] at hexisting
  refine ⟨existing, ?_, rfl⟩
  refine Dictionary.merge_induction ?_ (fun d key text hd => hd.insert key text)
    (fun d hd => hd.sorted) p.keys p.isSorted
  cases existing with
  | none => exact Dictionary.exact_empty
  | some d => exact Dictionary.exact_of_read? hexisting (hfloat d hexisting)

/-- Where the keys of a plan are stored already none is added, and the file stays as it is. -/
theorem renderDictionary_of_isMerged (hmerges : p.merges = true) (hg : p.IsMerged g)
    (hread : w.readText path = .ok g.contents) :
    p.renderDictionary w path = .ok ⟨path, g.contents, 0⟩ := by
  obtain ⟨existing, hexact, hcontents⟩ := hg
  rw [hcontents] at hread ⊢
  refine renderDictionary_eq_ok_iff.mpr ⟨some (Dictionary.merge existing p.keys p.isSorted).1, ?_, ?_⟩
  · rw [existing?, if_pos hmerges]
    exact hexact.read? hread
  · rw [Dictionary.merge_merge]

variable {languages : List String} {fileName : Option String} {files : List OutputFile}

/-- Dictionaries that were written are rendered as they are, and nothing is added to them. -/
theorem render_dictionaries_again (hmerges : p.merges = true)
    (hfloat : ∀ language ∈ languages, ∀ d,
      Dictionary.read? w (p.outputPath languages fileName language) = .ok (some d) →
        d.hasFloat = false)
    (hrender : (Renderer.dictionaries languages fileName).render p w = .ok files)
    (hwritten : Written files w after) :
    ∃ again, (Renderer.dictionaries languages fileName).render p after = .ok again ∧
      again.map OutputFile.path = files.map OutputFile.path ∧
      ∀ f ∈ again, f.added = 0 ∧ after.readText f.path = .ok f.contents := by
  have hmerged : ∀ f ∈ files, p.IsMerged f := by
    intro f hf
    obtain ⟨language, hlanguage, hrendered⟩ := exists_mem_of_mapM hrender hf
    exact isMerged_of_renderDictionary hmerges (hfloat language hlanguage) hrendered
  have hpath : ∀ (w : Workspace) (language : String) (f : OutputFile),
      p.renderDictionary w (p.outputPath languages fileName language) = .ok f →
        f.path = p.outputPath languages fileName language := by
    intro w language f hf
    obtain ⟨existing, -, rfl⟩ := renderDictionary_eq_ok_iff.mp hf
    rfl
  have hpaths := map_eq_of_mapM hrender (hpath w)
  have hsteps : ∀ language ∈ languages, ∃ f,
      p.renderDictionary after (p.outputPath languages fileName language) = .ok f ∧
        f.added = 0 ∧ after.readText f.path = .ok f.contents := by
    intro language hlanguage
    have hmem : p.outputPath languages fileName language ∈ files.map OutputFile.path := by
      rw [hpaths]
      exact List.mem_map_of_mem hlanguage
    obtain ⟨f, hf, hfpath⟩ := List.mem_map.mp hmem
    obtain ⟨g, hg, hread⟩ := hwritten.reads f hf
    rw [hfpath] at hread
    exact ⟨_, renderDictionary_of_isMerged hmerges (hmerged g hg) hread, rfl, hread⟩
  obtain ⟨again, hagain, hall⟩ := exists_mapM hsteps
  exact ⟨again, hagain, (map_eq_of_mapM hagain (hpath after)).trans hpaths.symm, hall⟩

theorem exists_of_render_sheet {fileName : String}
    (h : (Renderer.sheet fileName).render p w = .ok files) : ∃ file, files = [file] := by
  rw [Renderer.render] at h
  cases hsheet : p.renderSheet w fileName with
  | error e => simp [hsheet, bind, Except.bind] at h
  | ok file =>
      simp only [hsheet, bind, Except.bind, Except.ok.injEq] at h
      exact ⟨file, h.symm⟩

/-- A sheet is rendered as it was from the same dictionaries. -/
theorem render_sheet_congr {fileName : String}
    (h : ∀ language ∈ ["en", "ko"],
      Dictionary.read? after (p.dictionaryPath language) =
        Dictionary.read? w (p.dictionaryPath language)) :
    (Renderer.sheet fileName).render p after = (Renderer.sheet fileName).render p w := by
  have hexisting : ∀ language ∈ ["en", "ko"], p.existing? after (p.dictionaryPath language) =
      p.existing? w (p.dictionaryPath language) := by
    intro language hlanguage
    rw [existing?, existing?, h language hlanguage]
  rw [Renderer.render, Renderer.render, renderSheet, renderSheet, hexisting "en" (by simp),
    hexisting "ko" (by simp)]

end Localization.OutputPlan
