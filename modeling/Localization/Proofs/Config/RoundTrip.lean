import Localization.Config.Basic
import Localization.Proofs.Json.Record

/-!
Configurations and the objects that write them. A configuration is read from its object as it was; where
settings are left out of the object, exactly these have their defaults.
-/

namespace Localization

open Json (RecordField)
open Json.RecordField (Restores applyAll)

/-! ## Kinds of fields -/

namespace Json.RecordField

open Reader

variable {α : Type} {leavesOut : List String → Bool} {a : α} {name : String}

theorem restores_ofText {get : α → String} {set : String → α → α} (hset : ∀ b, set (get b) b = b) :
    Restores leavesOut a (.ofText name get set) fun b =>
      set (if leavesOut [name] then get b else get a) b :=
  restores_of_always (w := .string) hset fun _ => readsAs_text (get a)

theorem restores_ofTruth {get : α → Bool} {set : Bool → α → α} (hset : ∀ b, set (get b) b = b) :
    Restores leavesOut a (.ofTruth name get set) fun b =>
      set (if leavesOut [name] then get b else get a) b :=
  restores_of_always (w := .bool) hset fun _ => readsAs_truth (get a)

theorem restores_ofOptional {get : α → Option String} {set : Option String → α → α}
    (hset : ∀ b, set (get b) b = b) :
    Restores leavesOut a (.ofOptional name get set) fun b =>
      set (if (get a).map Json.string = none ∨ leavesOut [name] then get b else get a) b := by
  refine restores_of (w := fun v => v.map .string) hset fun j hwrite _ level => ?_
  obtain ⟨s, hs, rfl⟩ := Option.map_eq_some_iff.mp hwrite
  rw [hs]
  exact readsAs_optional_text s

theorem restores_ofList {get : α → List String} {set : List String → α → α}
    (hset : ∀ b, set (get b) b = b) :
    Restores leavesOut a (.ofList name get set) fun b =>
      set (if leavesOut [name] then get b else get a) b := by
  refine restores_of_always (w := fun v => .array (v.map .string)) hset fun level => readsAs_list ?_
  rw [List.forall₂_map_left_iff, List.forall₂_same]
  exact fun s _ => readsAs_text s

theorem restores_ofFormat {get : α → OutputFormat} {set : OutputFormat → α → α}
    (hset : ∀ b, set (get b) b = b) :
    Restores leavesOut a (.ofFormat name get set) fun b =>
      set (if leavesOut [name] then get b else get a) b := by
  have hname : ∀ format : OutputFormat, OutputFormat.choices.lookup format.name = some format := by
    rintro ⟨⟩
    · rfl
    · rfl
  exact restores_of_always (w := fun v => .string v.name) hset fun _ => readsAs_choice (hname (get a))

/-- A record in a field is read back from what is left of its own members. -/
theorem restores_ofRecord {β : Type} {expected : String} {fields : List (RecordField β)} {default : β}
    {changes : List (β → β)} {get : α → β} {set : β → α → α} (hset : ∀ b, set (get b) b = b)
    (h : List.Forall₂ (Restores (fun place => leavesOut (name :: place)) (get a)) fields changes)
    (hnames : (fields.map RecordField.name).Nodup) :
    Restores leavesOut a (.ofRecord name expected fields default get set) fun b =>
      set (if leavesOut [name] then get b else applyAll changes default) b :=
  restores_of_always (w := Json.ofRecord fields) hset fun level =>
    readsAs_without_ofRecord h hnames expected default level

end Json.RecordField

/-! ## Settings with their defaults -/

/-- The settings of wrapping, with the default where a setting is left out. -/
def WrapConfig.withDefaults (leavesOut : List String → Bool) (c : WrapConfig) : WrapConfig :=
  let d : WrapConfig := {}
  { pattern := if leavesOut ["pattern"] then d.pattern else c.pattern
    generateKeys := if leavesOut ["generateKeys"] then d.generateKeys else c.generateKeys
    space := if leavesOut ["namespace"] then d.space else c.space
    processKorean := if leavesOut ["processKorean"] then d.processKorean else c.processKorean
    processEnglish := if leavesOut ["processEnglish"] then d.processEnglish else c.processEnglish
    textPattern := if leavesOut ["textRegex"] then d.textPattern else c.textPattern
    importSource := if leavesOut ["importSource"] then d.importSource else c.importSource
    keyPrefix := if leavesOut ["keyPrefix"] then d.keyPrefix else c.keyPrefix
    outputDirectory := if leavesOut ["outputDir"] then d.outputDirectory else c.outputDirectory }

/-- The settings of extraction, with the default where a setting is left out. -/
def ExtractConfig.withDefaults (leavesOut : List String → Bool) (c : ExtractConfig) : ExtractConfig :=
  let d : ExtractConfig := {}
  { pattern := if leavesOut ["pattern"] then d.pattern else c.pattern
    outputFile := if leavesOut ["outputFile"] then d.outputFile else c.outputFile
    outputDirectory := if leavesOut ["outputDir"] then d.outputDirectory else c.outputDirectory
    format := if leavesOut ["format"] then d.format else c.format
    languages := if leavesOut ["languages"] then d.languages else c.languages
    space := if leavesOut ["namespace"] then d.space else c.space
    merges := if leavesOut ["merge"] then d.merges else c.merges
    sortsKeys := if leavesOut ["sortKeys"] then d.sortsKeys else c.sortsKeys
    showsLines := if leavesOut ["includeLineNumbers"] then d.showsLines else c.showsLines
    showsPaths := if leavesOut ["includeFilePaths"] then d.showsPaths else c.showsPaths }

/-- A configuration with the default where a setting, or a whole part, is left out. -/
def Config.withDefaults (leavesOut : List String → Bool) (c : Config) : Config where
  wrap :=
    if leavesOut ["wrap"] then {}
    else c.wrap.withDefaults fun place => leavesOut ("wrap" :: place)
  extract :=
    if leavesOut ["extract"] then {}
    else c.extract.withDefaults fun place => leavesOut ("extract" :: place)

variable (leavesOut : List String → Bool)

/-- A setting that may be missing, which is left out of the written form then. -/
theorem ite_missing (s : Option String) (p : Prop) [Decidable p] :
    (if s.map Json.string = none ∨ p then none else s) = if p then none else s := by
  cases s with
  | none => simp
  | some s => simp

theorem WrapConfig.exists_changes (c : WrapConfig) : ∃ changes,
    List.Forall₂ (Restores leavesOut c) fields changes ∧
      applyAll changes {} = c.withDefaults leavesOut := by
  have hfields : List.Forall₂ (Restores leavesOut c) fields _ :=
    .cons (RecordField.restores_ofText fun _ => rfl) <|
    .cons (RecordField.restores_ofTruth fun _ => rfl) <|
    .cons (RecordField.restores_ofOptional fun _ => rfl) <|
    .cons (RecordField.restores_ofTruth fun _ => rfl) <|
    .cons (RecordField.restores_ofTruth fun _ => rfl) <|
    .cons (RecordField.restores_ofOptional fun _ => rfl) <|
    .cons (RecordField.restores_ofText fun _ => rfl) <|
    .cons (RecordField.restores_ofOptional fun _ => rfl) <|
    .cons (RecordField.restores_ofText fun _ => rfl) .nil
  refine ⟨_, hfields, ?_⟩
  simp only [applyAll, List.foldl_cons, List.foldl_nil, ite_missing]
  rfl

theorem ExtractConfig.exists_changes (c : ExtractConfig) : ∃ changes,
    List.Forall₂ (Restores leavesOut c) fields changes ∧
      applyAll changes {} = c.withDefaults leavesOut := by
  have hfields : List.Forall₂ (Restores leavesOut c) fields _ :=
    .cons (RecordField.restores_ofText fun _ => rfl) <|
    .cons (RecordField.restores_ofOptional fun _ => rfl) <|
    .cons (RecordField.restores_ofText fun _ => rfl) <|
    .cons (RecordField.restores_ofFormat fun _ => rfl) <|
    .cons (RecordField.restores_ofList fun _ => rfl) <|
    .cons (RecordField.restores_ofOptional fun _ => rfl) <|
    .cons (RecordField.restores_ofTruth fun _ => rfl) <|
    .cons (RecordField.restores_ofTruth fun _ => rfl) <|
    .cons (RecordField.restores_ofTruth fun _ => rfl) <|
    .cons (RecordField.restores_ofTruth fun _ => rfl) .nil
  refine ⟨_, hfields, ?_⟩
  simp only [applyAll, List.foldl_cons, List.foldl_nil, ite_missing]
  rfl

theorem Config.exists_changes (c : Config) : ∃ changes,
    List.Forall₂ (Restores leavesOut c) fields changes ∧
      applyAll changes {} = c.withDefaults leavesOut := by
  obtain ⟨wrapChanges, hwrap, hwrapped⟩ :=
    c.wrap.exists_changes fun place => leavesOut ("wrap" :: place)
  obtain ⟨extractChanges, hextract, hextracted⟩ :=
    c.extract.exists_changes fun place => leavesOut ("extract" :: place)
  have hfields : List.Forall₂ (Restores leavesOut c) fields _ :=
    .cons (RecordField.restores_ofRecord (fun _ => rfl) hwrap (by decide)) <|
    .cons (RecordField.restores_ofRecord (fun _ => rfl) hextract (by decide)) .nil
  refine ⟨_, hfields, ?_⟩
  rw [hwrapped, hextracted]
  rfl

/-! ## Reading -/

namespace Config

theorem withDefaults_none (c : Config) : c.withDefaults (fun _ => false) = c :=
  rfl

theorem parse?_without (c : Config) :
    parse? (c.toJson.without leavesOut).render.toList = .ok (c.withDefaults leavesOut) := by
  obtain ⟨changes, hchanges, hdefaults⟩ := c.exists_changes leavesOut
  have hread : Json.Reader.ReadsAs (Json.Reader.record "struct Config" fields {}) 0
      (c.toJson.without leavesOut) (c.withDefaults leavesOut) := by
    rw [← hdefaults]
    exact RecordField.readsAs_without_ofRecord hchanges (by decide) "struct Config" {} 0
  have hnone : ∀ b ∈ ([] : List Char), Json.Reader.IsBlank b := by simp
  have hrun := Json.Reader.run_eq_ok hread hnone nofun
  rwa [List.append_nil, ← String.toList_ofList (l := Json.renderAt 0 _)] at hrun

/-- A configuration is read from its object as it was, and where members of the object or of its parts are
left out, with the defaults of exactly these. -/
theorem parse?_written :
    (∀ c : Config, parse? c.toJson.render.toList = .ok c) ∧
      ∀ (c : Config) (leavesOut : List String → Bool),
        parse? (c.toJson.without leavesOut).render.toList = .ok (c.withDefaults leavesOut) := by
  refine ⟨fun c => ?_, fun c leavesOut => parse?_without leavesOut c⟩
  have h := parse?_without (fun _ => false) c
  rwa [Json.without_none, withDefaults_none] at h

end Config

end Localization
