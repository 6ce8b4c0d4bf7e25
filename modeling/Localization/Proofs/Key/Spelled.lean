import Localization.Component.Literal
import Localization.Extraction
import Localization.Proofs.Source.Grammar.Sample

/-!
Calls of the lookup function as they are written in the place of texts. Main statement:
`emitted_literals_decode`, by which the written form of a key is read as that key, at every site.
-/

namespace Localization

open Source (Node Cursor callText spelledCall stringEnd nextToken)
open Text (byteLength)

namespace Occurrence

/-- The keys of the calls in a tree, in the order of a walk. -/
def keysIn (tree : Node) : List String :=
  tree.walk.filterMap fun n => (keyOfCall? n).map Prod.fst

theorem keys_collect (file : String) (source : List Char) (tree : Node) :
    (collect file source tree).map Occurrence.key = keysIn tree := by
  rw [collect, List.map_filterMap, keysIn]
  congr 1
  funext n
  simp [ofNode?, Function.comp_def]

theorem keysIn_mk {kind : Source.Kind} (h : kind ≠ .call) (span : Source.Span) (children : List Node) :
    keysIn (.mk kind span children) = children.flatMap keysIn := by
  have hnone : keyOfCall? (.mk kind span children) = none := by
    unfold keyOfCall?
    split
    · next hkind _ => exact absurd hkind h
    · rfl
  rw [keysIn, Node.walk, List.filterMap_cons, hnone, Node.walkAll_eq_flatMap, List.filterMap_flatMap]
  rfl

/-- The key of the call is collected, unless it is empty. -/
theorem keysIn_spelledCall (lo : Nat) (key : String) :
    keysIn (spelledCall lo key) = if key = "" then [] else [key] := by
  have hcall : (keyOfCall? (spelledCall lo key)).map Prod.fst = if key = "" then none else some key := by
    change (if key.isEmpty then none else some (key, none)).map Prod.fst = _
    by_cases hempty : key = "" <;> simp [hempty]
  have hothers : (Node.walkAll (spelledCall lo key).children).filterMap
      (fun n => (keyOfCall? n).map Prod.fst) = [] := rfl
  change (spelledCall lo key :: Node.walkAll (spelledCall lo key).children).filterMap _ = _
  rw [List.filterMap_cons, hcall, hothers]
  by_cases hempty : key = "" <;> simp [hempty]

end Occurrence

namespace LiteralSite

/-- The reader of what is written at a site. -/
def reader (site : LiteralSite) (depth : Nat) : Source.Parser Node :=
  match site with
  | .expression => Source.Parser.construct (depth + 5) .assignment
  | .attribute => Source.Parser.attributeValue (Source.Parser.construct (depth + 5))
  | .propertyKey => Source.Parser.propertyKey (Source.Parser.construct (depth + 5)) false
  | .elementText => Source.Parser.childContainer (Source.Parser.construct (depth + 5))

/-- A small source with what is written at a site. -/
def sample (site : LiteralSite) (written : String) : String :=
  match site with
  | .expression => written
  | .attribute => "<p a=" ++ written ++ "/>"
  | .propertyKey => "[\x7b" ++ written ++ ":0\x7d]"
  | .elementText => "<p>" ++ written ++ "</p>"

theorem toList_wrap (site : LiteralSite) (key : String) (rest : List Char) :
    (site.wrap (lookupCall key)).toList ++ rest =
      match site with
      | .expression => callText key rest
      | .attribute | .elementText => '\x7b' :: callText key ('\x7d' :: rest)
      | .propertyKey => '[' :: callText key (']' :: rest) := by
  cases site <;> simp [wrap, lookupCall, lookupName, callText]

end LiteralSite

section

open Occurrence Source.Parser

variable (site : LiteralSite) (key : String)

/-- What is written at a site is read there as a call with its key, whatever follows it; behind an expression a
token has to follow that does not continue it. -/
theorem exists_reader_run (rest : List Char) (offset depth : Nat) (c : Cursor)
    (hend : site = .expression →
      (nextToken false ⟨rest, stringEnd offset key + 1⟩).token.kind.endsOperand = true) :
    ∃ n c', site.reader depth (c.movedTo ⟨(site.wrap (lookupCall key)).toList ++ rest, offset⟩) = .ok (n, c') ∧
      keysIn n = if key = "" then [] else [key] := by
  rw [site.toList_wrap]
  cases site with
  | expression =>
      exact ⟨_, _, (atCall_movedTo c (hend rfl)).construct_assignment, keysIn_spelledCall _ key⟩
  | «attribute» => exact ⟨_, _, run_attributeValue .., by simp [keysIn_mk, keysIn_spelledCall]⟩
  | propertyKey => exact ⟨_, _, run_propertyKey .., by simp [keysIn_mk, keysIn_spelledCall]⟩
  | elementText => exact ⟨_, _, run_childContainer, by simp [keysIn_mk, keysIn_spelledCall]⟩

/-- A small source with what is written at a site is a module, and its only key is the one written. -/
theorem exists_sample_module {jsx : Bool} (hjsx : site = .attribute ∨ site = .elementText → jsx = true) :
    ∃ module, Source.parseModule jsx (site.sample (site.wrap (lookupCall key))).toList = .ok module ∧
      keysIn module = if key = "" then [] else [key] := by
  cases site with
  | expression =>
      have htext : (LiteralSite.expression.sample (LiteralSite.expression.wrap (lookupCall key))).toList =
          callText key [] := by
        simpa [LiteralSite.sample] using LiteralSite.toList_wrap .expression key []
      rw [htext]
      refine Source.exists_parseModule fun depth => ?_
      have hat : AtCall (Source.Parser.firstCursor jsx (callText key [])) 0 key [] := ⟨⟨true, rfl⟩, rfl, rfl⟩
      refine ⟨_, _, moduleBody_of_expression (depth + 18) (.inl rfl) rfl
        (hat.construct_expression rfl) rfl, ?_⟩
      simp [keysIn_mk, keysIn_spelledCall]
  | «attribute» =>
      have htext : (LiteralSite.attribute.sample (LiteralSite.attribute.wrap (lookupCall key))).toList =
          '<' :: 'p' :: ' ' :: 'a' :: '=' :: '\x7b' :: callText key ('\x7d' :: '/' :: '>' :: []) := by
        rw [LiteralSite.sample, String.toList_append, String.toList_append, List.append_assoc,
          LiteralSite.toList_wrap]
        rfl
      have hflag : jsx = true := hjsx (.inl rfl)
      rw [htext]
      subst hflag
      refine Source.exists_parseModule fun depth => ?_
      obtain ⟨whole, opening, name, entry, title, container, hrun⟩ :=
        run_jsxElement_attribute key [] 1 (depth + 9)
          (c := Source.Parser.firstCursor true
            ('<' :: 'p' :: ' ' :: 'a' :: '=' :: '\x7b' :: callText key ('\x7d' :: '/' :: '>' :: []))) rfl rfl
      obtain ⟨all, statement, hmodule⟩ :=
        moduleBody_of_element (depth + 15) rfl rfl rfl ⟨rfl, rfl, rfl⟩ hrun
      exact ⟨_, _, hmodule, by simp [keysIn_mk, keysIn_spelledCall]⟩
  | elementText =>
      have hflag : jsx = true := hjsx (.inr rfl)
      have htext : (LiteralSite.elementText.sample (LiteralSite.elementText.wrap (lookupCall key))).toList =
          '<' :: 'p' :: '>' :: '\x7b' :: callText key ('\x7d' :: '<' :: '/' :: 'p' :: '>' :: []) := by
        rw [LiteralSite.sample, String.toList_append, String.toList_append, List.append_assoc,
          LiteralSite.toList_wrap]
        rfl
      rw [htext]
      subst hflag
      refine Source.exists_parseModule fun depth => ?_
      obtain ⟨whole, opening, name, closing, container, hrun⟩ :=
        run_jsxElement_children key [] 1 (depth + 9)
          (c := Source.Parser.firstCursor true
            ('<' :: 'p' :: '>' :: '\x7b' :: callText key ('\x7d' :: '<' :: '/' :: 'p' :: '>' :: []))) rfl rfl
      obtain ⟨all, statement, hmodule⟩ :=
        moduleBody_of_element (depth + 15) rfl rfl rfl ⟨rfl, rfl, rfl⟩ hrun
      exact ⟨_, _, hmodule, by simp [keysIn_mk, keysIn_spelledCall]⟩
  | propertyKey =>
      have htext : (LiteralSite.propertyKey.sample (LiteralSite.propertyKey.wrap (lookupCall key))).toList =
          '[' :: '\x7b' :: '[' :: callText key (']' :: ':' :: '0' :: '\x7d' :: ']' :: []) := by
        rw [LiteralSite.sample, String.toList_append, String.toList_append, List.append_assoc,
          LiteralSite.toList_wrap]
        rfl
      rw [htext]
      refine Source.exists_parseModule fun depth => ?_
      obtain ⟨whole, argument, object, hrun⟩ :=
        run_array key [] 1 (depth + 9)
          (c := Source.Parser.firstCursor jsx
            ('[' :: '\x7b' :: '[' :: callText key (']' :: ':' :: '0' :: '\x7d' :: ']' :: []))) rfl rfl rfl
      refine ⟨_, _, moduleBody_of_expression (depth + 18) (.inr (.inr rfl)) rfl
        (construct_expression hrun rfl) rfl, ?_⟩
      simp [keysIn_mk, spelledProperty, keysIn_spelledCall]

end

/-- A text in its written form is one string token of which the value is that text. So at every site a call
with a key as its argument is read as such: from each of the small sources exactly the key is collected, and
nothing if the key is empty; and so it is wherever the reader of the site comes to the call. -/
theorem emitted_literals_decode :
    (∀ (s : String) (rest : List Char) (offset : Nat),
      Source.tokenAt ⟨(Text.Quoted.encode s).toList ++ rest, offset⟩ =
        (.string (some s), ⟨rest, offset + byteLength (Text.Quoted.encode s).toList⟩)) ∧
    (∀ (site : LiteralSite) (key path : String),
      (site = .attribute ∨ site = .elementText → Source.allowsElements path = true) →
      ∃ found, Extraction.occurrences ⟨path, (site.sample (site.wrap (lookupCall key))).toList⟩ = .ok found ∧
        found.map Occurrence.key = if key = "" then [] else [key]) ∧
    ∀ (site : LiteralSite) (key : String) (rest : List Char) (offset depth : Nat) (c : Cursor),
      (site = .expression →
        (nextToken false ⟨rest, stringEnd offset key + 1⟩).token.kind.endsOperand = true) →
      ∃ n c', site.reader depth (c.movedTo ⟨(site.wrap (lookupCall key)).toList ++ rest, offset⟩) =
          .ok (n, c') ∧
        ∀ file source, (Occurrence.collect file source n).map Occurrence.key =
          if key = "" then [] else [key] := by
  refine ⟨Source.tokenAt_encode, fun site key path hpath => ?_,
    fun site key rest offset depth c hend => ?_⟩
  · obtain ⟨module, hmodule, hkeys⟩ := exists_sample_module site key hpath
    refine ⟨Occurrence.collect path (site.sample (site.wrap (lookupCall key))).toList module, ?_,
      (Occurrence.keys_collect ..).trans hkeys⟩
    rw [Extraction.occurrences, Source.parseFile, hmodule]
  · obtain ⟨n, c', hrun, hkeys⟩ := exists_reader_run site key rest offset depth c hend
    exact ⟨n, c', hrun, fun file source => (Occurrence.keys_collect ..).trans hkeys⟩

/-- A key with a quote, a backslash, a line feed, a line separator and a character beyond the first plane. -/
def awkwardKey : String :=
  "\x22\\\n\u2028😀"

theorem emitted_literals_decode_awkwardKey :
    (∃ found, Extraction.occurrences
        ⟨"a.tsx", (LiteralSite.attribute.sample (LiteralSite.attribute.wrap (lookupCall awkwardKey))).toList⟩ =
          .ok found ∧ found.map Occurrence.key = [awkwardKey]) ∧
      ∃ n c', LiteralSite.expression.reader 0
          ((Source.Parser.firstCursor true []).movedTo ⟨(lookupCall awkwardKey).toList ++ [')'], 0⟩) = .ok (n, c') ∧
        (Occurrence.collect "a.tsx" [] n).map Occurrence.key = [awkwardKey] := by
  obtain ⟨-, hsamples, hreaders⟩ := emitted_literals_decode
  refine ⟨hsamples .attribute awkwardKey "a.tsx" fun _ => by decide, ?_⟩
  obtain ⟨n, c', hrun, hkeys⟩ := hreaders .expression awkwardKey [')'] 0 0 (Source.Parser.firstCursor true []) fun _ => rfl
  exact ⟨n, c', hrun, hkeys "a.tsx" []⟩

end Localization
