import Mathlib.Data.List.Perm.Subperm
import Localization.Extraction
import Localization.Proofs.Component.Wrap
import Localization.Proofs.Key.Call
import Localization.Proofs.Key.Spelled
import Localization.Proofs.Source.Address

/-!
Which calls of a source give keys. Of the calls of the lookup function with a key, those that are written
plainly are found, each of them once, and nothing else is. Main statement: `occurrences_find_calls_iff`,
which says that a call is missed exactly if it stands in an optional chain or is a call of a method of
`super`.
-/

namespace Localization

open Source (Node Kind Span)

/-! ### Calls with a key -/

/-- The kinds of a call: a plain one, and one in an optional chain. -/
def IsCall (kind : Kind) : Prop :=
  kind = .call ∨ kind = .chainCall

/-- The kinds of an access: a plain one, one in an optional chain, and one to `super`. -/
def IsAccess (kind : Kind) : Prop :=
  kind = .member ∨ kind = .optionalChain ∨ kind = .superMember

def IsArgument (kind : Kind) : Prop :=
  ∃ isSpread, kind = .argument isSpread

/-- A callee that is the name of the lookup function, or accesses a property of this name. -/
inductive NamesLookup : Node → Prop
  | name (span : Span) (parts : List Node) : NamesLookup (.mk (.identifier lookupName) span parts)
  | access {kind : Kind} (hkind : IsAccess kind) (span : Span) (object : Node) {property : Node}
      (hproperty : property.kind = .keyName lookupName) : NamesLookup (.mk kind span [object, property])

/-- A call of the lookup function of which the first argument is a key: a string that is not empty. -/
inductive CallsWith (key : String) : Node → Prop
  | mk {kind : Kind} {callee string : Node} {front : List Node} (hkind : IsCall kind)
      (hcallee : NamesLookup callee) (hfront : ∀ part ∈ front, ¬ IsArgument part.kind)
      (hstring : string.kind = .string (some key)) (hkey : key ≠ "") (span place : Span)
      (back : List Node) :
      CallsWith key (.mk kind span (callee :: front ++ .mk (.argument false) place [string] :: back))

/-- A call in an optional chain, or of a method of `super`. -/
def IsHidden (n : Node) : Prop :=
  n.kind = .chainCall ∨
    ∃ callee ∈ n.children.head?, callee.kind = .optionalChain ∨ callee.kind = .superMember

/-- What was found in a tree: for each of the calls that are asked for one occurrence, of its key. -/
def FindsExactly (tree : Node) (asked : String → Node → Prop) (found : List Occurrence) : Prop :=
  ∃ addresses : List (List Nat), addresses.Nodup ∧
    (∀ address, address ∈ addresses ↔ ∃ n key, tree.at? address = some n ∧ asked key n) ∧
    List.Forall₂ (fun address o => ∃ n, tree.at? address = some n ∧ asked o.key n) addresses found

namespace Occurrence

theorem isLookupCallee_iff {callee : Node} : isLookupCallee callee = true ↔
    NamesLookup callee ∧ callee.kind ≠ .optionalChain ∧ callee.kind ≠ .superMember := by
  cases callee with
  | mk kind span parts =>
      constructor
      · intro h
        unfold isLookupCallee at h
        split at h
        · next name hkind =>
            obtain rfl : name = lookupName := beq_iff_eq.mp h
            obtain rfl : kind = .identifier lookupName := hkind
            exact ⟨.name span parts, nofun, nofun⟩
        · next object property hkind hparts =>
            obtain rfl : kind = .member := hkind
            obtain rfl : parts = [object, property] := hparts
            exact ⟨.access (.inl rfl) span object (beq_iff_eq.mp h), nofun, nofun⟩
        · contradiction
      · rintro ⟨hnames, hchain, hsuper⟩
        cases hnames with
        | name => exact beq_self_eq_true lookupName
        | access hkind _ object hproperty =>
            rcases hkind with rfl | rfl | rfl
            · exact beq_iff_eq.mpr hproperty
            · exact absurd rfl hchain
            · exact absurd rfl hsuper

theorem not_isArgument_of_namesLookup {callee : Node} (h : NamesLookup callee) :
    ¬ IsArgument callee.kind := by
  rintro ⟨isSpread, hkind⟩
  cases h with
  | name => exact nomatch hkind
  | access haccess =>
      subst hkind
      rcases haccess with h | h | h
      all_goals contradiction

theorem stringArgument?_eq_some_iff {argument : Node} {key : String} :
    stringArgument? argument = some key ↔ ∃ place string,
      argument = .mk (.argument false) place [string] ∧ string.kind = .string (some key) := by
  cases argument with
  | mk kind place parts =>
      constructor
      · intro h
        unfold stringArgument? at h
        split at h
        · next string hkind hparts =>
            obtain rfl : kind = .argument false := hkind
            obtain rfl : parts = [string] := hparts
            refine ⟨place, string, rfl, ?_⟩
            unfold Node.stringValue? at h
            split at h
            · next hstring => rw [hstring, h]
            · contradiction
        · contradiction
      · rintro ⟨_, string, h, hstring⟩
        cases h
        change string.stringValue? = some key
        rw [Node.stringValue?, hstring]

theorem arguments_head?_eq_some_iff {parts : List Node} {span : Span} {kind : Kind} {a : Node} :
    (arguments (.mk kind span parts)).head? = some a ↔ ∃ front back, parts = front ++ a :: back ∧
      IsArgument a.kind ∧ ∀ part ∈ front, ¬ IsArgument part.kind := by
  obtain ⟨test, htest, hfilter⟩ : ∃ test : Node → Bool, (∀ part, test part = true ↔ IsArgument part.kind) ∧
      arguments (.mk kind span parts) = parts.filter test := by
    refine ⟨_, fun part => ?_, rfl⟩
    cases hkind : part.kind <;> simp [IsArgument]
  rw [hfilter, List.head?_filter, List.find?_eq_some_iff_append]
  constructor
  · rintro ⟨ha, front, back, hparts, hfront⟩
    refine ⟨front, back, hparts, (htest a).mp ha, ?_⟩
    intro part hpart hargument
    have hnone := hfront part hpart
    rw [(htest part).mpr hargument] at hnone
    contradiction
  · rintro ⟨front, back, hparts, ha, hfront⟩
    refine ⟨(htest a).mpr ha, front, back, hparts, ?_⟩
    intro part hpart
    rw [Bool.not_eq_true', Bool.eq_false_iff]
    exact fun h => hfront part hpart ((htest part).mp h)

/-- A node gives a key exactly if it is a call with this key, and not a hidden one. -/
theorem keyOfCall?_eq_some_iff {n : Node} {key : String} :
    (∃ text, keyOfCall? n = some (key, text)) ↔ CallsWith key n ∧ ¬ IsHidden n := by
  constructor
  · rintro ⟨text, h⟩
    unfold keyOfCall? at h
    split at h
    · next callee rest hkind hparts =>
        split at h
        · next hcallee =>
            obtain ⟨found, hfound, h⟩ := Option.bind_eq_some_iff.mp h
            obtain ⟨a, ha, hstring⟩ := Option.bind_eq_some_iff.mp hfound
            split at h
            · contradiction
            · next hkey =>
                obtain ⟨rfl, -⟩ := Prod.mk.inj (Option.some.inj h)
                cases n with
                | mk kind span parts =>
                    obtain rfl : kind = .call := hkind
                    obtain rfl : parts = callee :: rest := hparts
                    obtain ⟨hnames, hchain, hsuper⟩ := isLookupCallee_iff.mp hcallee
                    obtain ⟨place, string, rfl, hvalue⟩ := stringArgument?_eq_some_iff.mp hstring
                    obtain ⟨front, back, hsplit, hargument, hfront⟩ := arguments_head?_eq_some_iff.mp ha
                    -- The callee is no argument, so it stands in front of the key.
                    cases front with
                    | nil =>
                        obtain ⟨rfl, -⟩ := List.cons.inj hsplit
                        exact absurd hargument (not_isArgument_of_namesLookup hnames)
                    | cons first front =>
                        obtain ⟨rfl, rfl⟩ := List.cons.inj hsplit
                        constructor
                        · refine .mk (.inl rfl) hnames ?_ hvalue ?_ span place back
                          · exact fun part hpart => hfront part (List.mem_cons_of_mem _ hpart)
                          · rintro rfl
                            exact hkey rfl
                        · rintro (h | ⟨callee, hhead, h⟩)
                          · exact nomatch h
                          · obtain rfl := Option.some.inj hhead
                            exact h.elim hchain hsuper
        · contradiction
    · contradiction
  · rintro ⟨hcalls, hplain⟩
    cases hcalls with
    | @mk kind callee string front hkind hcallee hfront hstring hkey span place back =>
        rcases hkind with rfl | rfl
        · have hlookup : isLookupCallee callee = true := by
            refine isLookupCallee_iff.mpr ⟨hcallee, ?_, ?_⟩
            · exact fun h => hplain (.inr ⟨callee, rfl, .inl h⟩)
            · exact fun h => hplain (.inr ⟨callee, rfl, .inr h⟩)
          have hfirst : (arguments (.mk .call span
              (callee :: front ++ .mk (.argument false) place [string] :: back))).head? =
                some (.mk (.argument false) place [string]) := by
            refine arguments_head?_eq_some_iff.mpr ⟨callee :: front, back, rfl, ⟨false, rfl⟩, ?_⟩
            exact List.forall_mem_cons.mpr ⟨not_isArgument_of_namesLookup hcallee, hfront⟩
          have hvalue := stringArgument?_eq_some_iff.mpr ⟨place, string, rfl, hstring⟩
          simp only [List.cons_append] at hfirst
          simp [keyOfCall?, Node.kind, Node.children, hlookup, hfirst, hvalue, hkey]
        · exact absurd (.inl rfl) hplain

theorem exists_ofNode?_iff {file : String} {source : List Char} {n : Node} :
    (∃ o, ofNode? file source n = some o) ↔ ∃ key, CallsWith key n ∧ ¬ IsHidden n := by
  simp only [← keyOfCall?_eq_some_iff, ofNode?, Option.map_eq_some_iff]
  constructor
  · rintro ⟨o, ⟨key, text⟩, h, -⟩
    exact ⟨key, text, h⟩
  · rintro ⟨key, text, h⟩
    exact ⟨_, _, h, rfl⟩

theorem callsWith_of_ofNode? {file : String} {source : List Char} {n : Node} {o : Occurrence}
    (h : ofNode? file source n = some o) : CallsWith o.key n ∧ ¬ IsHidden n := by
  obtain ⟨⟨key, text⟩, hkey, rfl⟩ := Option.map_eq_some_iff.mp h
  exact keyOfCall?_eq_some_iff.mp ⟨text, hkey⟩

theorem collect_finds_plain (file : String) (source : List Char) (tree : Node) :
    FindsExactly tree (fun key n => CallsWith key n ∧ ¬ IsHidden n) (collect file source tree) := by
  refine ⟨_, (Node.nodup_addresses tree).filter _, ?_,
    (Node.forall₂_filterMap_walk tree (ofNode? file source)).imp ?_⟩
  · intro address
    rw [List.mem_filter, Node.mem_addresses_iff, Option.isSome_iff_exists]
    constructor
    · rintro ⟨⟨n, hn⟩, o, ho⟩
      rw [hn, Option.bind_some] at ho
      exact ⟨n, o.key, hn, callsWith_of_ofNode? ho⟩
    · rintro ⟨n, key, hn, hcalls⟩
      refine ⟨⟨n, hn⟩, ?_⟩
      rw [hn]
      exact exists_ofNode?_iff.mpr ⟨key, hcalls⟩
  · rintro address o ⟨n, hn, ho⟩
    exact ⟨n, hn, callsWith_of_ofNode? ho⟩

end Occurrence

/-- What is found for all calls that are asked for and for those with a property are as many. -/
theorem FindsExactly.forall_of_all {tree : Node} {asked : String → Node → Prop} {P : Node → Prop}
    {found : List Occurrence} (hall : FindsExactly tree asked found)
    (hsome : FindsExactly tree (fun key n => asked key n ∧ P n) found) {address : List Nat} {n : Node}
    {key : String} (hn : tree.at? address = some n) (hasked : asked key n) : P n := by
  obtain ⟨addresses, hnodup, hmem, hfound⟩ := hall
  obtain ⟨plain, hnodup', hmem', hfound'⟩ := hsome
  have hsubset : plain ⊆ addresses := by
    intro a ha
    obtain ⟨m, k, hm, hk, -⟩ := (hmem' a).mp ha
    exact (hmem a).mpr ⟨m, k, hm, hk⟩
  have hlength : addresses.length ≤ plain.length :=
    Nat.le_of_eq (hfound.length_eq.trans hfound'.length_eq.symm)
  have hperm := (List.subperm_of_subset hnodup' hsubset).perm_of_length_le hlength
  obtain ⟨m, k, hm, -, hP⟩ := (hmem' address).mp (hperm.mem_iff.mpr ((hmem address).mpr ⟨n, key, hn, hasked⟩))
  obtain rfl : m = n := Option.some.inj (hm.symm.trans hn)
  exact hP

theorem Extraction.occurrences_of_parseFile {s : SourceText} {tree : Node}
    (htree : Source.parseFile s.path s.text = .ok tree) :
    occurrences s = .ok (Occurrence.collect s.path s.text tree) := by
  rw [occurrences, htree]

/-- Every source that is a module gives the keys of its plain calls, one occurrence for each of them and
none for anything else. So no call of the lookup function with a key is missed exactly if none of them
stands in an optional chain or is a call of a method of `super`. -/
theorem occurrences_find_calls_iff {s : SourceText} {tree : Node}
    (htree : Source.parseFile s.path s.text = .ok tree) :
    ∃ found, Extraction.occurrences s = .ok found ∧
      FindsExactly tree (fun key n => CallsWith key n ∧ ¬ IsHidden n) found ∧
      (FindsExactly tree CallsWith found ↔
        ∀ address n key, tree.at? address = some n → CallsWith key n → ¬ IsHidden n) := by
  have hplain := Occurrence.collect_finds_plain s.path s.text tree
  refine ⟨_, Extraction.occurrences_of_parseFile htree, hplain, ?_, ?_⟩
  · intro hall address n key hn hcalls
    exact hall.forall_of_all hplain hn hcalls
  · intro hnone
    obtain ⟨addresses, hnodup, hmem, hfound⟩ := hplain
    refine ⟨addresses, hnodup, ?_, ?_⟩
    · intro address
      rw [hmem]
      constructor
      · rintro ⟨n, key, hn, hcalls, -⟩
        exact ⟨n, key, hn, hcalls⟩
      · rintro ⟨n, key, hn, hcalls⟩
        exact ⟨n, key, hn, hcalls, hnone address n key hn hcalls⟩
    · refine hfound.imp ?_
      rintro address o ⟨n, hn, hcalls, -⟩
      exact ⟨n, hn, hcalls⟩

/-- Two calls with one key, the second of them in the options of the first one, between tags. -/
def nestedCalls : List Char :=
  "const a = <p>\x7bt(\"a\", \x7b x: i18n.t(\"a\") \x7d)\x7d</p>;\nt(\"\");\n".toList

theorem occurrences_find_calls_nestedCalls : ∃ tree found,
    Source.parseFile "a.tsx" nestedCalls = .ok tree ∧
      Extraction.occurrences ⟨"a.tsx", nestedCalls⟩ = .ok found ∧
      found.map Occurrence.key = ["a", "a"] ∧ FindsExactly tree CallsWith found := by
  obtain ⟨tree, htree, hfacts⟩ := exists_module "a.tsx" nestedCalls
    (p := fun tree => Occurrence.keysIn tree == ["a", "a"] &&
      tree.walk.all fun n => n.kind != .chainCall &&
        n.children.head?.all fun callee => callee.kind != .optionalChain && callee.kind != .superMember)
    (by decide +kernel)
  simp only [Bool.and_eq_true, beq_iff_eq, List.all_eq_true, bne_iff_ne] at hfacts
  obtain ⟨hkeys, hplain⟩ := hfacts
  obtain ⟨found, hfound, -, hiff⟩ :=
    occurrences_find_calls_iff (s := ⟨"a.tsx", nestedCalls⟩) htree
  refine ⟨tree, found, htree, hfound, ?_, hiff.mpr ?_⟩
  · have hcollect := Extraction.occurrences_of_parseFile (s := ⟨"a.tsx", nestedCalls⟩) htree
    obtain rfl := Except.ok.inj (hcollect.symm.trans hfound)
    exact (Occurrence.keys_collect ..).trans hkeys
  · rintro address n key hn - (hchain | ⟨callee, hhead, hcallee⟩)
    · exact (hplain n (Node.mem_walk_of_at? hn)).1 hchain
    · have hboth := (hplain n (Node.mem_walk_of_at? hn)).2
      rw [Option.mem_def.mp hhead, Option.all_some, Bool.and_eq_true, bne_iff_ne, bne_iff_ne] at hboth
      exact hcallee.elim hboth.1 hboth.2

/-- A call in an optional chain. -/
def chainedCall : List Char :=
  "i18n?.t(\"common.save\");\n".toList

/-- The call that `chainedCall` is parsed to. -/
def isChainedCall : Node → Bool
  | .mk .chainCall _ [.mk .optionalChain _ [_, property], .mk (.argument false) _ [string]] =>
      property.kind == .keyName "t" && string.kind == .string (some "common.save")
  | _ => false

/-- Calls with a key are not always found: one in an optional chain is missed. -/
theorem occurrences_not_always_find_calls :
    ¬ ∀ (s : SourceText) (tree : Node) (found : List Occurrence),
      Source.parseFile s.path s.text = .ok tree → Extraction.occurrences s = .ok found →
        FindsExactly tree CallsWith found := by
  intro hall
  obtain ⟨tree, htree, hfacts⟩ := exists_module "a.tsx" chainedCall
    (p := fun tree => Occurrence.keysIn tree == [] && (tree.at? [0, 0]).any isChainedCall)
    (by decide +kernel)
  rw [Bool.and_eq_true, beq_iff_eq, ← Occurrence.keys_collect "a.tsx" chainedCall,
    Option.any_eq_true] at hfacts
  obtain ⟨hnone, n, hat, hcall⟩ := hfacts
  obtain ⟨addresses, -, hmem, hfound⟩ := hall ⟨"a.tsx", chainedCall⟩ tree _ htree
    (Extraction.occurrences_of_parseFile htree)
  rw [List.map_eq_nil_iff.mp hnone, List.forall₂_nil_right_iff] at hfound
  unfold isChainedCall at hcall
  split at hcall
  · next span callee object property place string =>
      simp only [Bool.and_eq_true, beq_iff_eq] at hcall
      have hcalls : CallsWith "common.save" (.mk .chainCall span
          ([.mk .optionalChain callee [object, property]] ++ .mk (.argument false) place [string] :: [])) :=
        .mk (.inr rfl) (.access (.inr (.inl rfl)) callee object hcall.1) (by simp) hcall.2 (by decide) span place []
      have hlisted := (hmem [0, 0]).mpr ⟨_, _, hat, hcalls⟩
      rw [hfound] at hlisted
      contradiction
  · contradiction

end Localization
