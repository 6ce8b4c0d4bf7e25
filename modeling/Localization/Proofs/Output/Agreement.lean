import Localization.Proofs.Output.Sheet
import Localization.Proofs.Output.Written
import Localization.Settings

/-!
Sheets and dictionaries of one extraction. Dictionaries that were written for several languages stand where
a sheet looks for them, and the sheet shows the texts that they hold. Main statement:
`sheet_shows_dictionaries`.
-/

namespace Localization

namespace ExtractSettings

/-- The settings with a sheet as their form of output. -/
def asSheet (s : ExtractSettings) : ExtractSettings :=
  { s with format := .csv }

theorem renderer_asSheet {s : ExtractSettings} (h : s.outputFile = none) :
    s.asSheet.renderer = .sheet Renderer.defaultSheetName := by
  rw [renderer, asSheet, h]
  rfl

end ExtractSettings

namespace Dictionary

/-- The value of a key is a text. -/
def IsText (d : Dictionary) (key : String) : Prop :=
  ∃ text, d.get? key = some (.string text)

theorem isText_iff {d : Dictionary} {key : String} :
    d.IsText key ↔ OutputPlan.textIn? (some d) key ≠ none := by
  rw [Option.ne_none_iff_exists']
  constructor
  · rintro ⟨text, htext⟩
    exact ⟨text, OutputPlan.textIn?_eq_some.mpr ⟨d, rfl, htext⟩⟩
  · rintro ⟨text, htext⟩
    obtain ⟨stored, hstored, hget⟩ := OutputPlan.textIn?_eq_some.mp htext
    obtain rfl := Option.some.inj hstored
    exact ⟨text, hget⟩

instance (d : Dictionary) (key : String) : Decidable (d.IsText key) :=
  decidable_of_iff _ isText_iff.symm

/-- A cell of a key holds its text, if its value is one. -/
def ShownAs (d : Dictionary) (key cell : String) : Prop :=
  ∀ text, d.get? key = some (.string text) → cell = text

end Dictionary

/-- A dictionary that stands at a path among outputs that were written: it has the texts of the output whose
contents the file holds, and all keys. -/
structure IsStored (files : List OutputFile) (keys : KeySet) (after : Workspace) (path : String)
    (d : Dictionary) : Prop where
  read : Dictionary.read? after path = .ok (some d)
  written : ∃ f ∈ files, ∃ merged : Dictionary, f.contents = merged.render.toList ∧ merged.HasSameTexts d
  contains : ∀ o ∈ keys.unique, o.key ∈ d.keys

namespace OutputPlan

open OutputFile

variable {p : OutputPlan} {w after : Workspace} {path : String} {f : OutputFile}
  {files : List OutputFile} {languages : List String} {language : String}

theorem outputPath_of_length_ne_one (h : languages.length ≠ 1) (language : String) :
    p.outputPath languages none language = p.dictionaryPath language := by
  unfold outputPath dictionaryPath
  cases p.space with
  | none => rfl
  | some space => exact if_neg h

theorem isReadable_merge (hmerges : p.merges = true) {existing : Option Dictionary}
    (h : p.existing? w path = .ok existing) :
    (Dictionary.merge existing p.keys p.isSorted).1.IsReadable := by
  rw [existing?, if_pos hmerges] at h
  refine Dictionary.merge_induction ?_ (fun d key text hd => hd.insert key text) (fun d hd => hd.sorted)
    p.keys p.isSorted
  cases existing with
  | none => exact Dictionary.isReadable_empty
  | some d => exact Dictionary.isReadable_of_read? h

/-- From a file with the contents of a rendered dictionary a dictionary with the same texts is read. -/
theorem exists_isStored (hmerges : p.merges = true)
    (hrender : (Renderer.dictionaries languages none).render p w = .ok files)
    (hwritten : Written files w after) (hlanguage : language ∈ languages) :
    ∃ d, IsStored files p.keys after (p.outputPath languages none language) d := by
  obtain ⟨f, hf, hrendered⟩ := exists_output_of_mapM hrender hlanguage
  obtain ⟨stored, -, rfl⟩ := renderDictionary_eq_ok_iff.mp hrendered
  obtain ⟨g, hg, hread⟩ := hwritten.reads _ hf
  -- A later output may stand in the file, but that one is a dictionary with all keys too.
  obtain ⟨other, -, hother⟩ := exists_mem_of_mapM hrender hg
  obtain ⟨existing, hexisting, rfl⟩ := renderDictionary_eq_ok_iff.mp hother
  obtain ⟨d, hd, hsame⟩ := (isReadable_merge hmerges hexisting).exists_read? hread
  refine ⟨d, hd, ⟨_, hg, _, rfl, hsame⟩, fun o ho => ?_⟩
  rw [hsame.keys]
  exact Dictionary.mem_keys_merge existing p.isSorted ho

theorem render_sheet {fileName : String} (h : p.renderSheet w fileName = .ok f) :
    (Renderer.sheet fileName).render p w = .ok [f] := by
  rw [Renderer.render, h]
  rfl

theorem shownAs_getD (d : Dictionary) (key missing : String) :
    d.ShownAs key ((textIn? (some d) key).getD missing) := by
  intro text htext
  rw [textIn?_eq_some.mpr ⟨d, rfl, htext⟩]
  rfl

end OutputPlan

open OutputFile

variable {w after : Workspace} {s : ExtractSettings} {keys : KeySet} {files : List OutputFile}

/-- After the dictionaries of several languages were written, a sheet with the same settings reads what they
say: it has one row for each key, with the English and the Korean text of the key wherever there is one, and
it counts the keys without a Korean text. -/
theorem sheet_shows_dictionaries (hformat : s.format = .json) (hmerges : s.merges = true)
    (hname : s.outputFile = none) (henglish : "en" ∈ s.languages) (hkorean : "ko" ∈ s.languages)
    (hrender : s.renderer.render (s.plan keys) w = .ok files)
    (hwrite : writeAll files w = (after, .ok ())) :
    ∃ english korean file rows,
      IsStored files keys after ((s.plan keys).outputPath s.languages s.outputFile "en") english ∧
      IsStored files keys after ((s.plan keys).outputPath s.languages s.outputFile "ko") korean ∧
      s.asSheet.renderer.render (s.asSheet.plan keys) after = .ok [file] ∧
      Sheet.read file.contents = ["Key", "English", "Korean"] :: rows ∧
      List.Forall₂ (fun o row => ∃ englishCell koreanCell, row = [o.key, englishCell, koreanCell] ∧
        english.ShownAs o.key englishCell ∧ korean.ShownAs o.key koreanCell)
        (keys.ordered s.isSorted) rows ∧
      file.added = keys.unique.countP fun o => ¬ korean.IsText o.key := by
  have hrenderer : s.renderer = .dictionaries s.languages none := by
    rw [ExtractSettings.renderer, hformat, hname, Renderer.ofFormat]
  have hseveral : s.languages.length ≠ 1 := by
    intro hone
    obtain ⟨language, hlanguages⟩ := List.length_eq_one_iff.mp hone
    rw [hlanguages, List.mem_singleton] at henglish hkorean
    exact absurd (henglish.trans hkorean.symm) (by decide)
  rw [hrenderer] at hrender
  have hwritten := written_of_writeAll hwrite
  obtain ⟨english, hen⟩ := OutputPlan.exists_isStored hmerges hrender hwritten henglish
  obtain ⟨korean, hko⟩ := OutputPlan.exists_isStored hmerges hrender hwritten hkorean
  have hexisting : ∀ language d, Dictionary.read? after ((s.plan keys).outputPath s.languages none language) =
      .ok d → (s.plan keys).existing? after ((s.plan keys).dictionaryPath language) = .ok d := by
    intro language d hread
    rw [OutputPlan.outputPath_of_length_ne_one hseveral] at hread
    rw [OutputPlan.existing?]
    exact (if_pos hmerges).trans hread
  have hsheet := OutputPlan.render_sheet (OutputPlan.renderSheet_eq Renderer.defaultSheetName
    (hexisting "en" _ hen.read) (hexisting "ko" _ hko.read))
  rw [hname, ExtractSettings.renderer_asSheet hname]
  let record := OutputPlan.sheetRecord (some english) (some korean)
  refine ⟨english, korean, _, (keys.ordered s.isSorted).map record, hen, hko, hsheet, ?_, ?_, ?_⟩
  · exact Sheet.read_render OutputPlan.one_lt_length_of_mem_sheet
  · rw [List.forall₂_map_right_iff]
    exact List.forall₂_same.mpr fun o _ => ⟨_, _, rfl, OutputPlan.shownAs_getD _ _ _, OutputPlan.shownAs_getD _ _ _⟩
  · refine ((KeySet.perm_ordered keys s.isSorted).countP_eq _).trans (List.countP_congr fun o _ => ?_)
    rw [decide_eq_true_iff, Dictionary.isText_iff, not_not, Option.isNone_iff_eq_none]

/-- A project with a text in English, a rate that is no text, and nothing in Korean. -/
def ratedProject : Workspace where
  tree := .directory [("locales", .directory [("en", .directory [("web.json", .file
    (.text "\x7b\"hello\": \"Hi, \\\"you\\\"\", \"rate\": 25e-3\x7d".toList))])])]
  current := []

def ratedKeys : KeySet :=
  KeySet.ofOccurrences [⟨"rate", none, "a.tsx", 1, 1⟩, ⟨"hello", some "안녕", "a.tsx", 2, 1⟩]

def ratedSettings : ExtractSettings where
  pattern := "**/*.tsx"
  outputFile := none
  outputDirectory := "locales"
  format := .json
  languages := ["ko", "en"]
  space := some "web"
  merges := true
  isSorted := true
  showsLines := false
  showsPaths := false
  isDryRun := false
  isVerbose := false

theorem sheet_shows_dictionaries_rated :
    ∃ files after english korean file rows,
      ratedSettings.renderer.render (ratedSettings.plan ratedKeys) ratedProject = .ok files ∧
      writeAll files ratedProject = (after, .ok ()) ∧
      IsStored files ratedKeys after "locales/en/web.json" english ∧
      IsStored files ratedKeys after "locales/ko/web.json" korean ∧
      ratedSettings.asSheet.renderer.render (ratedSettings.asSheet.plan ratedKeys) after = .ok [file] ∧
      Sheet.read file.contents = ["Key", "English", "Korean"] :: rows := by
  obtain ⟨files, hrender, hfiles⟩ := exists_ok_of_any
    (x := ratedSettings.renderer.render (ratedSettings.plan ratedKeys) ratedProject)
    (p := fun files => (writeAll files ratedProject).2.toOption.isSome) (by decide +kernel)
  obtain ⟨⟨⟩, hwritten, -⟩ := exists_ok_of_any (p := fun _ => true)
    (Option.any_true.trans hfiles)
  have hwrite : writeAll files ratedProject = ((writeAll files ratedProject).1, .ok ()) := by
    rw [← hwritten]
  obtain ⟨english, korean, file, rows, hen, hko, hsheet, hread, -⟩ :=
    sheet_shows_dictionaries (s := ratedSettings) rfl rfl rfl (by decide) (by decide) hrender hwrite
  exact ⟨files, _, english, korean, file, rows, hrender, hwrite, hen, hko, hsheet, hread⟩

end Localization
