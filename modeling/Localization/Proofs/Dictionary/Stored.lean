import Localization.Proofs.Dictionary.Merge
import Localization.Proofs.Json.RoundTrip
import Localization.Proofs.Tree.Rewritten

/-!
Dictionaries in files. A dictionary without floats that was read from some file comes back as it was from
every file to which it is written. Main statement: `read?_write`.
-/

namespace Localization.Dictionary

variable {d : Dictionary} {w after : Workspace} {path : String} {text : List Char}

/-- Whether there is a float in a dictionary, at any depth. -/
def hasFloat (d : Dictionary) : Bool :=
  (Json.object d.entries).hasFloat

/-- A dictionary whose numbers, names and depth are such as can be read. -/
def IsReadable (d : Dictionary) : Prop :=
  (Json.object d.entries).InRange Json.Reader.depthLimit

theorem isReadable_empty : IsReadable OrderedMap.empty :=
  ⟨List.nodup_nil, nofun⟩

theorem IsReadable.insert (h : d.IsReadable) (key text : String) :
    IsReadable (d.insert key (.string text)) :=
  Json.Reader.MembersInRange.insert h key trivial

theorem IsReadable.sorted (h : d.IsReadable) : d.sorted.IsReadable := by
  have hperm := perm_sorted d
  exact ⟨((hperm.map Prod.fst).nodup_iff).mpr h.1, fun m hm => h.2 m (hperm.mem_iff.mp hm)⟩

/-- A dictionary of which the written form is read as the dictionary itself. -/
structure Exact (d : Dictionary) : Prop where
  inRange : d.IsReadable
  noFloat : d.hasFloat = false

theorem exact_empty : Exact OrderedMap.empty :=
  ⟨isReadable_empty, rfl⟩

theorem Exact.insert (h : d.Exact) (key text : String) : Exact (d.insert key (.string text)) := by
  refine ⟨h.inRange.insert key text, ?_⟩
  have hfloat := h.noFloat
  rw [hasFloat, Json.hasFloat, Json.membersHaveFloat_eq_any, List.any_eq_false] at hfloat ⊢
  intro e he
  rcases OrderedMap.mem_insertEntry he with rfl | hold
  · nofun
  · exact hfloat e hold

theorem Exact.sorted (h : d.Exact) : d.sorted.Exact := by
  have hfloat := h.noFloat
  refine ⟨h.inRange.sorted, ?_⟩
  rw [hasFloat, Json.hasFloat, Json.membersHaveFloat_eq_any] at hfloat ⊢
  rw [(perm_sorted d).any_eq]
  exact hfloat

/-- A dictionary that is written down is read from its written form. -/
theorem Exact.parse?_render (h : d.Exact) (path : String) : parse? path d.render.toList = .ok d := by
  rw [parse?, render, Json.parse?_render h.inRange h.noFloat]

theorem parse?_eq_ok_iff : parse? path text = .ok d ↔ Json.parse? text = .ok (.object d.entries) := by
  rw [parse?]
  constructor
  · intro h
    split at h
    · contradiction
    · next members hmembers =>
        rw [hmembers, ← Except.ok.inj h]
    · contradiction
  · intro h
    rw [h]

/-- A dictionary is read from a text in a file. -/
theorem read?_eq_ok_none_iff : read? w path = .ok none ↔ w.exists path = false := by
  rw [read?]
  constructor
  · intro h
    split at h
    · cases htext : w.readText path with
      | error e => simp [htext, Except.mapError, bind, Except.bind] at h
      | ok text =>
          cases hparse : parse? path text with
          | error e => simp [htext, hparse, Except.mapError, bind, Except.bind] at h
          | ok d => simp [htext, hparse, Except.mapError, bind, Except.bind] at h
    · next hnone => exact Bool.eq_false_iff.mpr hnone
  · intro h
    rw [h]
    rfl

theorem read?_eq_ok_some_iff : read? w path = .ok (some d) ↔
    ∃ text, w.readText path = .ok text ∧ Json.parse? text = .ok (.object d.entries) := by
  rw [read?]
  constructor
  · intro h
    split at h
    · cases htext : w.readText path with
      | error e => simp [htext, Except.mapError, bind, Except.bind] at h
      | ok text =>
          cases hparse : parse? path text with
          | error e => simp [htext, hparse, Except.mapError, bind, Except.bind] at h
          | ok d' =>
              simp only [htext, hparse, Except.mapError, bind, Except.bind, Except.ok.injEq,
                Option.some.injEq] at h
              subst h
              exact ⟨text, rfl, parse?_eq_ok_iff.mp hparse⟩
    · simp at h
  · rintro ⟨text, htext, hparse⟩
    simp only [Workspace.exists_of_readText htext, htext, parse?_eq_ok_iff.mpr hparse, Except.mapError, bind,
      Except.bind, if_true]

theorem isReadable_of_read? (h : read? w path = .ok (some d)) : d.IsReadable := by
  obtain ⟨text, -, hparse⟩ := read?_eq_ok_some_iff.mp h
  exact Json.inRange_of_parse? hparse

/-- What is read from a file is in range, so that only floats may change when it is written. -/
theorem exact_of_read? (h : read? w path = .ok (some d)) (hfloat : d.hasFloat = false) : d.Exact :=
  ⟨isReadable_of_read? h, hfloat⟩

theorem Exact.read? (h : d.Exact) (htext : w.readText path = .ok d.render.toList) :
    read? w path = .ok (some d) :=
  read?_eq_ok_some_iff.mpr ⟨_, htext, Json.parse?_render h.inRange h.noFloat⟩

/-- A dictionary without floats that was read from a file can be written there again. From every file to
which it is written it is read as it was, and its written form is what that file holds. -/
theorem read?_write (hread : read? w path = .ok (some d)) (hfloat : d.hasFloat = false) :
    (∃ after, d.write w path = (after, .ok ())) ∧
      ∀ (other after : Workspace) (target : String), d.write other target = (after, .ok ()) →
        read? after target = .ok (some d) ∧ after.readText target = .ok d.render.toList := by
  obtain ⟨text, htext, -⟩ := read?_eq_ok_some_iff.mp hread
  refine ⟨Workspace.exists_save_of_readText htext _, fun other after target hwrite => ?_⟩
  obtain ⟨place, hwrote⟩ := Workspace.exists_place_of_save hwrite
  exact ⟨(exact_of_read? hread hfloat).read? hwrote.readText, hwrote.readText⟩

/-- A file that holds nested values and escapes. -/
def nestedExample : Workspace where
  tree := .directory [("ko.json",
    .file (.text "\x7b\"b\": [-1, true, null, \x7b\x7d],\"a\\u00e9\": \"\\ud83d\\ude00\\n\"\x7d".toList))]
  current := []

theorem read?_write_nested :
    ∃ d after, read? nestedExample "ko.json" = .ok (some d) ∧ d.hasFloat = false ∧
      d.write nestedExample "ko.json" = (after, .ok ()) ∧ read? after "ko.json" = .ok (some d) := by
  have hread : read? nestedExample "ko.json" = .ok (some ⟨[("b", .array [.number (.negative 1), .bool true,
      .null, .object []]), ("aé", .string "😀\n")]⟩) := by
    rfl
  obtain ⟨⟨after, hwrite⟩, hagain⟩ := read?_write hread rfl
  exact ⟨_, after, hread, rfl, hwrite, (hagain _ _ _ hwrite).1⟩

/-! ## Texts -/

/-- A dictionary with the keys of another one in their order, and with the same texts. -/
structure HasSameTexts (d e : Dictionary) : Prop where
  keys : e.keys = d.keys
  texts : ∀ key text, e.get? key = some (.string text) ↔ d.get? key = some (.string text)

theorem lookup_string_iff {members read : List (String × Json)}
    (h : List.Forall₂ Json.Reader.ResemblesMember members read) (key text : String) :
    read.lookup key = some (.string text) ↔ members.lookup key = some (.string text) := by
  induction h with
  | nil => rfl
  | cons hmember _ ih =>
      obtain ⟨hname, hvalue⟩ := hmember
      rw [OrderedMap.lookup_cons_eq, OrderedMap.lookup_cons_eq, hname]
      split
      · constructor
        · intro htext
          rw [hvalue.text text (Option.some.inj htext)]
        · intro htext
          rw [hvalue.same (by rw [Option.some.inj htext]; rfl)]
          exact htext
      · exact ih

/-- Whatever numbers it holds, a dictionary keeps its keys and texts in a file. -/
theorem IsReadable.exists_read? (h : d.IsReadable) (htext : w.readText path = .ok d.render.toList) :
    ∃ e, read? w path = .ok (some e) ∧ d.HasSameTexts e := by
  obtain ⟨members, hparse, hsame⟩ := Json.exists_parse?_render_object h
  refine ⟨⟨members⟩, read?_eq_ok_some_iff.mpr ⟨_, htext, hparse⟩, ?_, ?_⟩
  · exact Json.Reader.map_fst_of_resemblesMember hsame
  · exact lookup_string_iff hsame

end Localization.Dictionary
