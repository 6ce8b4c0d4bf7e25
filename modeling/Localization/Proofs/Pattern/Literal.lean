import Localization.Pattern.Selection
import Localization.Proofs.Tree.Path

/-!
The plain names at the beginning of a glob. A path that the glob accepts begins with these names, so that
the files of a glob lie below the directory that they lead to. Main statement: `exists_below_of_accepts`.
-/

namespace Localization.Glob

open Path (IsPiece)

/-- A character that stands for itself in a glob. -/
def IsPlainChar (c : Char) : Prop :=
  c ≠ '*' ∧ c ≠ '?' ∧ c ≠ '['

theorem isPlainChar_of_mem {name : String} (h : hasWildcard name = false) :
    ∀ c ∈ name.toList, IsPlainChar c := by
  intro c hc
  have hnone := List.any_eq_false.mp h c hc
  simpa [IsPlainChar, and_assoc] using hnone

theorem parseFrom_of_isPlainChar {c : Char} (h : IsPlainChar c) (fuel position : Nat)
    (atName : Bool) (rest : List Char) :
    parseFrom (fuel + 1) position atName (c :: rest) =
      (.literal c :: ·) <$> parseFrom fuel (position + 1) (c = '/') rest := by
  obtain ⟨hstar, hquestion, hbracket⟩ := h
  rw [parseFrom.eq_def]
  dsimp only
  rw [if_neg hquestion, if_neg hstar, if_neg hbracket]

/-- Plain characters are read as themselves. -/
theorem parseFrom_append {fuel position : Nat} {atName : Bool} {cs rest : List Char}
    {parts : List Part} (hplain : ∀ c ∈ cs, IsPlainChar c) (hfuel : cs.length ≤ fuel)
    (h : parseFrom fuel position atName (cs ++ rest) = .ok parts) :
    ∃ position' atName' more, parts = cs.map .literal ++ more ∧
      parseFrom (fuel - cs.length) position' atName' rest = .ok more := by
  induction cs generalizing fuel position atName parts with
  | nil => exact ⟨position, atName, parts, rfl, h⟩
  | cons c cs ih =>
      obtain ⟨fuel, rfl⟩ : ∃ n, fuel = n + 1 := Nat.exists_eq_succ_of_ne_zero (by
        simp only [List.length_cons] at hfuel
        omega)
      rw [List.cons_append, parseFrom_of_isPlainChar (hplain c List.mem_cons_self)] at h
      cases hmore : parseFrom fuel (position + 1) (c = '/') (cs ++ rest) with
      | error e => simp [hmore, Functor.map, Except.map] at h
      | ok tail =>
          simp only [hmore, Functor.map, Except.map, Except.ok.injEq] at h
          subst h
          have hlength : cs.length ≤ fuel := by
            simp only [List.length_cons] at hfuel
            omega
          obtain ⟨position', atName', more, rfl, hrest⟩ :=
            ih (fun d hd => hplain d (List.mem_cons_of_mem c hd)) hlength hmore
          refine ⟨position', atName', more, rfl, ?_⟩
          rwa [List.length_cons, Nat.add_sub_add_right]

theorem acceptsParts_literal (c d : Char) (more : List Part) (text : List Char) :
    acceptsParts (.literal c :: more) (d :: text) = (decide (d = c) && acceptsParts more text) := by
  cases more <;> rfl

theorem acceptsParts_append {cs text : List Char} {more : List Part}
    (h : acceptsParts (cs.map .literal ++ more) text = true) :
    ∃ rest, text = cs ++ rest ∧ acceptsParts more rest = true := by
  induction cs generalizing text with
  | nil => exact ⟨text, rfl, h⟩
  | cons c cs ih =>
      cases text with
      | nil => simp [acceptsParts] at h
      | cons d text =>
          rw [List.map_cons, List.cons_append, acceptsParts_literal, Bool.and_eq_true] at h
          obtain ⟨hd, hrest⟩ := h
          obtain ⟨rest, rfl, hmore⟩ := ih hrest
          rw [decide_eq_true_eq] at hd
          exact ⟨rest, by rw [hd]; rfl, hmore⟩

/-- The first slash divides a text in one way only. -/
theorem append_slash_inj {first other rest rest' : List Char} (hfirst : '/' ∉ first)
    (hother : '/' ∉ other) (h : first ++ '/' :: rest = other ++ '/' :: rest') :
    first = other ∧ rest = rest' := by
  induction first generalizing other with
  | nil =>
      cases other with
      | nil => exact ⟨rfl, (List.cons.inj h).2⟩
      | cons c other => exact absurd (List.cons.inj h).1 (fun hc => hother (hc ▸ List.mem_cons_self))
  | cons c first ih =>
      cases other with
      | nil => exact absurd (List.cons.inj h).1 (fun hc => hfirst (hc ▸ List.mem_cons_self))
      | cons d other =>
          obtain ⟨rfl, hrest⟩ := List.cons.inj h
          obtain ⟨rfl, htail⟩ := ih (mt (List.mem_cons_of_mem c) hfirst)
            (mt (List.mem_cons_of_mem c) hother) hrest
          exact ⟨rfl, htail⟩

/-- A name in a directory. -/
structure IsProperName (name : String) : Prop extends IsPiece name where
  not_current : name ≠ "."
  not_parent : name ≠ ".."

open Path (pieces partOf?)

theorem plainParts_of_length_le_one {ps : List Path.Part} (h : ps.length ≤ 1) : plainParts ps = [] := by
  match ps with
  | [] => rfl
  | [_] => rfl

theorem partOf?_of_hasWildcard {name : String} (h : hasWildcard name = true) :
    partOf? name = some (.name name) := by
  refine Path.partOf?_of_name ?_ ?_ ?_ <;> rintro rfl <;> simp [hasWildcard] at h

/-- The plain names at the beginning of a pattern are those at the beginning of every path that is
accepted. -/
theorem exists_names_of_acceptsParts {fuel position : Nat} {atName : Bool} {pattern : List Char}
    {ps : List Part} (hfuel : pattern.length < fuel)
    (hparse : parseFrom fuel position atName pattern = .ok ps) {place : List String}
    (hne : place ≠ []) (hplace : ∀ n ∈ place, IsProperName n)
    (h : acceptsParts ps ("/".intercalate place).toList = true) :
    ((pieces (String.ofList pattern)).head? = some "." → pieces (String.ofList pattern) = ["."]) ∧
      ∃ names below, place = names ++ below ∧
        plainParts ((pieces (String.ofList pattern)).filterMap partOf?) = names.map .name := by
  -- The induction is on the length, since one step passes a whole name and the slash behind it.
  induction hlength : pattern.length using Nat.strongRecOn
    generalizing pattern fuel position atName ps place with
  | _ length ih =>
  by_cases hslash : '/' ∈ pattern
  · obtain ⟨cs, rest, rfl, hcs⟩ := List.eq_append_cons_of_mem hslash
    have hsplit : String.ofList (cs ++ '/' :: rest) = String.ofList cs ++ "/" ++ String.ofList rest := by
      rw [← String.toList_inj]
      simp
    have hpieces : pieces (String.ofList (cs ++ '/' :: rest)) =
        String.ofList cs :: pieces (String.ofList rest) := by
      rw [hsplit, Path.pieces_append_slash, Path.pieces_of_notMem (by simpa using hcs)]
      rfl
    rw [hpieces, List.filterMap_cons]
    by_cases hwild : hasWildcard (String.ofList cs) = true
    · have hpart := partOf?_of_hasWildcard hwild
      refine ⟨?_, [], place, rfl, ?_⟩
      · intro hcurrent
        rw [Option.some.inj hcurrent] at hwild
        contradiction
      · rw [hpart]
        cases hmore : (pieces (String.ofList rest)).filterMap partOf? with
        | nil => rfl
        | cons part more =>
            rw [List.map_nil]
            exact if_pos hwild
    · rw [Bool.not_eq_true] at hwild
      have hplain : ∀ c ∈ cs ++ ['/'], IsPlainChar c := by
        intro c hc
        rcases List.mem_append.mp hc with hc | hc
        · exact isPlainChar_of_mem hwild c (by simpa using hc)
        · rw [List.mem_singleton.mp hc]
          simp [IsPlainChar]
      have happend : cs ++ '/' :: rest = (cs ++ ['/']) ++ rest := by simp
      have hlong : (cs ++ ['/']).length ≤ fuel := by
        simp only [List.length_append, List.length_cons, List.length_nil] at hfuel ⊢
        omega
      rw [happend] at hparse
      obtain ⟨position', atName', more, rfl, hrest⟩ := parseFrom_append hplain hlong hparse
      obtain ⟨left, htext, hmore⟩ := acceptsParts_append h
      obtain ⟨first, others, rfl⟩ := List.exists_cons_of_ne_nil hne
      have hfirst := hplace first List.mem_cons_self
      -- The path has a slash, so its first name is not its only one.
      obtain ⟨second, others, rfl⟩ : ∃ second more, others = second :: more := by
        refine List.exists_cons_of_ne_nil ?_
        rintro rfl
        rw [String.intercalate_singleton] at htext
        exact hfirst.noSlash (by simp [htext])
      rw [String.intercalate_cons_cons] at htext
      have htext' : first.toList ++ '/' :: ("/".intercalate (second :: others)).toList =
          cs ++ '/' :: left := by simpa using htext
      obtain ⟨rfl, rfl⟩ := append_slash_inj hfirst.noSlash hcs htext'
      rw [String.ofList_toList, Path.partOf?_of_name hfirst.ne_empty hfirst.not_current hfirst.not_parent]
      have hshorter : rest.length < fuel - (first.toList ++ ['/']).length := by
        simp only [List.length_append, List.length_cons, List.length_nil] at hfuel ⊢
        omega
      obtain ⟨-, names, below, hbelow, hnames⟩ := ih rest.length (by simp [← hlength]; omega) hshorter hrest
        (List.cons_ne_nil second others) (fun n hn => hplace n (List.mem_cons_of_mem first hn)) hmore rfl
      refine ⟨fun hcurrent => absurd (Option.some.inj hcurrent) hfirst.not_current, ?_⟩
      cases hparts : (pieces (String.ofList rest)).filterMap partOf? with
      | nil => exact ⟨[], _, rfl, rfl⟩
      | cons part tail =>
          rw [hparts] at hnames
          refine ⟨first :: names, below, by rw [hbelow]; rfl, ?_⟩
          rw [String.ofList_toList] at hwild
          rw [plainParts, Path.Part.text, hwild, if_neg Bool.false_ne_true, hnames, List.map_cons]
          · exact List.cons_ne_nil part tail
  · have hpieces : pieces (String.ofList pattern) = [String.ofList pattern] :=
      Path.pieces_of_notMem (by simpa using hslash)
    rw [hpieces]
    refine ⟨fun hcurrent => by rw [Option.some.inj hcurrent], [], place, rfl, ?_⟩
    exact plainParts_of_length_le_one (List.length_filterMap_le _ _)

/-- The parts of the directory from which the files of a glob are looked for. -/
def rootParts (g : Glob) : List Path.Part :=
  plainParts (Path.parts (String.ofList g.text))

/-- The plain names at the beginning of a glob. -/
def rootNames (g : Glob) : List String :=
  (g.rootParts.filter (· ≠ .current)).map Path.Part.text

/-- Every path that a relative glob accepts begins with the plain names of the glob, and these lead to
the directory from which its files are looked for. -/
theorem exists_below_of_accepts {pattern : List Char} {g : Glob} (hparse : parse? pattern = .ok g)
    (hrelative : g.text.head? ≠ some '/') {place : List String} (hne : place ≠ [])
    (hplace : ∀ n ∈ place, IsProperName n) (h : g.accepts ("/".intercalate place) = true) :
    ∃ below, place = g.rootNames ++ below ∧ g.startPath = "/".intercalate g.rootNames := by
  obtain ⟨ps, hps, rfl⟩ : ∃ ps, parseFrom (pattern.length + 1) 0 true pattern = .ok ps ∧
      g = ⟨pattern, ps⟩ := by
    rw [parse?] at hparse
    cases hps : parseFrom (pattern.length + 1) 0 true pattern with
    | error e => simp [hps, bind, Except.bind] at hparse
    | ok ps =>
        simp only [hps, bind, Except.bind, Except.ok.injEq] at hparse
        exact ⟨ps, rfl, hparse.symm⟩
  obtain ⟨hcurrent, names, below, hbelow, hnames⟩ :=
    exists_names_of_acceptsParts (Nat.lt_succ_self _) hps hne hplace h
  have hrooted : Path.isAbsolute (String.ofList pattern) = false := by
    simpa [Path.isAbsolute] using hrelative
  -- A current directory in front is all of a pattern that accepts a path.
  have hplain : ∃ found rest, plainParts (Path.parts (String.ofList pattern)) = found.map .name ∧
      place = found ++ rest := by
    rw [Path.parts_eq, Path.lead, hrooted, if_neg Bool.false_ne_true]
    by_cases hhead : (pieces (String.ofList pattern)).head? = some "."
    · rw [hcurrent hhead]
      exact ⟨[], place, rfl, rfl⟩
    · rw [if_neg (by simpa using hhead)]
      exact ⟨names, below, hnames, hbelow⟩
  obtain ⟨found, rest, hfound, hrest⟩ := hplain
  have hroot : rootNames ⟨pattern, ps⟩ = found := by
    rw [rootNames, rootParts, hfound, List.filter_eq_self.mpr]
    · rw [List.map_map]
      exact List.map_id found
    · intro part hpart
      obtain ⟨name, -, rfl⟩ := List.mem_map.mp hpart
      simp
  refine ⟨rest, by rw [hroot]; exact hrest, ?_⟩
  have hpieces : ∀ part ∈ found.map Path.Part.name, IsPiece part.text := by
    intro part hpart
    obtain ⟨name, hname, rfl⟩ := List.mem_map.mp hpart
    exact (hplace name (by rw [hrest]; exact List.mem_append_left _ hname)).toIsPiece
  rw [startPath, hfound, Path.foldl_join Path.Part.text hpieces, hroot, List.map_map]
  exact congrArg _ (List.map_id found)

end Localization.Glob
