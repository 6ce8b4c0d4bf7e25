import Localization.Proofs.Results
import Localization.Proofs.Text.Boundary
import Localization.Settings

/-!
The languages of an extraction. Those of a command line are trimmed, and blank ones are left out; those of a
configuration are taken as they stand, once there are any. Main statement: `resolve_trims_iff`.
-/

namespace Localization

namespace Config

/-- A configuration that passes the check names a language. -/
theorem languages_ne_nil_of_validate {c : Config} (h : c.validate = .ok ()) :
    c.extract.languages ≠ [] := by
  rw [validate] at h
  obtain ⟨_, -, h⟩ := bind_eq_ok_iff.mp h
  obtain ⟨_, -, h⟩ := bind_eq_ok_iff.mp h
  intro hnone
  cases hpattern : c.wrap.textPattern with
  | none => simp [hpattern, hnone, bind, Except.bind] at h
  | some pattern =>
      rw [hpattern] at h
      obtain ⟨_, -, h⟩ := bind_eq_ok_iff.mp h
      simp [hnone] at h

end Config

namespace ExtractSettings

variable {named : List String} {language : String}

theorem isTrimmed_of_mem_namedLanguages (h : language ∈ namedLanguages named) :
    Text.IsTrimmed language.toList := by
  obtain ⟨hmem, hkept⟩ := List.mem_filter.mp h
  obtain ⟨given, -, rfl⟩ := List.mem_map.mp hmem
  rw [Text.trimString, String.toList_ofList]
  refine Text.isTrimmed_trim fun hnil => ?_
  simp [Text.trimString, hnil] at hkept

/-- No language is left exactly if all that are named are blank. -/
theorem namedLanguages_eq_nil_iff :
    namedLanguages named = [] ↔ ∀ l ∈ named, ∀ c ∈ l.toList, Text.isBlank c = true := by
  simp only [namedLanguages, List.filter_eq_nil_iff, List.forall_mem_map]
  refine forall₂_congr fun l _ => ?_
  simp [Text.trimString, Text.trim_eq_nil_iff]

/-- The languages that count: those that the command line names, or without any those of the
configuration. -/
def chosenLanguages (a : ExtractArguments) (c : ExtractConfig) : List String :=
  if a.languages.isEmpty then c.languages else namedLanguages a.languages

theorem resolve_eq_error_iff {a : ExtractArguments} {c : ExtractConfig} {f : Failure} :
    resolve a c = .error f ↔ f = .of .noLanguage ∧ chosenLanguages a c = [] := by
  rw [resolve, ← chosenLanguages]
  split
  · next hnone => simp [List.isEmpty_iff.mp hnone, eq_comm]
  · next hsome => simp [mt List.isEmpty_iff.mpr hsome]

theorem languages_of_resolve {a : ExtractArguments} {c : ExtractConfig} {s : ExtractSettings}
    (h : resolve a c = .ok s) : s.languages = chosenLanguages a c ∧ s.languages ≠ [] := by
  rw [resolve, ← chosenLanguages] at h
  split at h
  · contradiction
  · next hsome =>
      obtain rfl := Except.ok.inj h
      exact ⟨rfl, mt List.isEmpty_iff.mpr hsome⟩

/-- With a configuration that passes the check, the settings fail exactly if the languages of the command
line are all blank. Else there is a language, and all of them are trimmed exactly if they are those of
the command line or if the configuration has them so. -/
theorem resolve_trims_iff (a : ExtractArguments) (c : Config) (h : c.validate = .ok ()) :
    (∀ f, resolve a c.extract = .error f ↔ f = .of .noLanguage ∧ a.languages ≠ [] ∧
      ∀ l ∈ a.languages, ∀ c ∈ l.toList, Text.isBlank c = true) ∧
    ∀ s, resolve a c.extract = .ok s → s.languages ≠ [] ∧
      ((∀ l ∈ s.languages, Text.IsTrimmed l.toList) ↔
        a.languages ≠ [] ∨ ∀ l ∈ c.extract.languages, Text.IsTrimmed l.toList) := by
  by_cases hnamed : a.languages = []
  · have hchosen : chosenLanguages a c.extract = c.extract.languages := by simp [chosenLanguages, hnamed]
    have hconfigured := Config.languages_ne_nil_of_validate h
    refine ⟨fun f => ?_, fun s hs => ?_⟩
    · rw [resolve_eq_error_iff, hchosen]
      simp [hconfigured, hnamed]
    · obtain ⟨hlanguages, hsome⟩ := languages_of_resolve hs
      rw [hlanguages, hchosen]
      exact ⟨hconfigured, by simp [hnamed]⟩
  · have hchosen : chosenLanguages a c.extract = namedLanguages a.languages := by
      simp [chosenLanguages, hnamed]
    refine ⟨fun f => ?_, fun s hs => ?_⟩
    · rw [resolve_eq_error_iff, hchosen, namedLanguages_eq_nil_iff, and_iff_right hnamed]
    · obtain ⟨hlanguages, hsome⟩ := languages_of_resolve hs
      refine ⟨hsome, iff_of_true ?_ (.inl hnamed)⟩
      rw [hlanguages, hchosen]
      exact fun l hl => isTrimmed_of_mem_namedLanguages hl

theorem not_isTrimmed_blank : ¬ Text.IsTrimmed " ".toList :=
  fun h => absurd (h.head ' ' rfl) (by decide)

/-- A blank language of the command line is refused, one of a configuration is not. -/
theorem resolve_trims_blank :
    resolve { languages := [" "] } {} = .error (.of .noLanguage) ∧
    ∃ s, resolve {} { languages := [" "] } = .ok s ∧ ¬ ∀ l ∈ s.languages, Text.IsTrimmed l.toList := by
  obtain ⟨hfails, -⟩ := resolve_trims_iff { languages := [" "] } {} (by decide +kernel)
  obtain ⟨-, hresolves⟩ := resolve_trims_iff {} { extract := { languages := [" "] } } (by decide +kernel)
  refine ⟨(hfails _).mpr ⟨rfl, by decide, namedLanguages_eq_nil_iff.mp (by decide)⟩, _, rfl, ?_⟩
  rw [(hresolves _ rfl).2]
  rintro (hnamed | hconfigured)
  · exact hnamed rfl
  · exact not_isTrimmed_blank (hconfigured " " List.mem_cons_self)

/-- Languages of a configuration that passes the check can be blank. -/
theorem resolve_not_always_trims :
    ¬ ∀ (a : ExtractArguments) (c : Config), c.validate = .ok () → ∀ s, resolve a c.extract = .ok s →
      s.languages ≠ [] ∧ ∀ l ∈ s.languages, Text.IsTrimmed l.toList := by
  intro htrims
  obtain ⟨-, htrimmed⟩ := htrims {} { extract := { languages := [" "] } } (by decide +kernel) _ rfl
  exact not_isTrimmed_blank (htrimmed " " List.mem_cons_self)

end ExtractSettings

end Localization
