import Localization.Key.Occurrence
import Localization.Proofs.Source.Way

/-!
What the key of a call depends on: whether the callee is the lookup function, and the texts of the
arguments one by one. Main statement: `keyOfCall?_eq`.
-/

namespace Localization.Occurrence

open Source (Node Kind)

/-- The default texts that an options object gives, in order. -/
def defaults (options : Node) : List String :=
  if options.kind == .object then
    options.children.flatMap fun property => (defaultOfProperty? property).toList
  else []

/-- The string that a part of a call is as an argument, and the default texts that it gives; nothing for
a part that is no argument. -/
def argumentTexts (part : Node) : List (Option String × List String) :=
  match part.kind with
  | .argument _ => [(stringArgument? part, (part.children.take 1).flatMap defaults)]
  | _ => []

/-- The key and the default text that arguments with some texts give. -/
def keyOfTexts : List (Option String × List String) → Option (String × Option String)
  | (some key, _) :: rest =>
    if key.isEmpty then none else some (key, rest.head?.bind fun texts => texts.2.head?)
  | _ => none

/-- Whether a node is a call of the lookup function or of a method of its name. -/
def isKeyCall (n : Node) : Bool :=
  n.kind == .call && n.children.head?.any isLookupCallee

theorem defaultOf?_eq {part : Node} {isSpread : Bool} (h : part.kind = .argument isSpread) :
    defaultOf? part = ((part.children.take 1).flatMap defaults).head? := by
  simp only [defaultOf?, Node.argumentValue?, h]
  cases part.children with
  | nil => rfl
  | cons options rest =>
      simp only [List.head?_cons, List.take_succ_cons, List.take_zero, List.flatMap_singleton,
        defaults, Option.bind_eq_bind, Option.bind_some]
      split
      · simp only [List.head?_flatMap, Option.head?_toList]
      · rfl

theorem argumentTexts_eq (parts : List Node) : parts.flatMap argumentTexts =
    (parts.filter fun c => match c.kind with | .argument _ => true | _ => false).map fun a =>
      (stringArgument? a, (a.children.take 1).flatMap defaults) := by
  induction parts with
  | nil => rfl
  | cons part rest ih =>
      rw [List.flatMap_cons, List.filter_cons, ih]
      cases hkind : part.kind with
      | argument isSpread => simp [argumentTexts, hkind]
      | _ => simp [argumentTexts, hkind]

/-- The key of a call and its default text depend on the texts of its arguments only. -/
theorem keyOfCall?_eq (n : Node) : keyOfCall? n =
    if isKeyCall n then keyOfTexts (n.children.flatMap argumentTexts) else none := by
  cases n with
  | mk kind span children =>
      cases children with
      | nil => cases kind <;> rfl
      | cons callee rest =>
          by_cases hcall : kind = .call
          · subst hcall
            have hkinds : ∀ a ∈ arguments (.mk .call span (callee :: rest)),
                ∃ isSpread, a.kind = .argument isSpread := by
              intro a ha
              have hargument := (List.mem_filter.mp ha).2
              split at hargument
              · next isSpread hkind => exact ⟨isSpread, hkind⟩
              · contradiction
            simp only [keyOfCall?, isKeyCall, Node.kind_mk, Node.children_mk, argumentTexts_eq]
            change _ = if _ then keyOfTexts ((arguments (.mk .call span (callee :: rest))).map _)
              else none
            simp only [beq_self_eq_true, Bool.true_and, List.head?_cons, Option.any_some]
            split
            · generalize arguments (.mk .call span (callee :: rest)) = found at hkinds
              cases found with
              | nil => rfl
              | cons a others =>
                  cases others with
                  | nil =>
                      cases hkey : stringArgument? a with
                      | none => simp [hkey, keyOfTexts]
                      | some key => simp [hkey, keyOfTexts]
                  | cons b more =>
                      obtain ⟨isSpread, hb⟩ := hkinds b (by simp)
                      cases hkey : stringArgument? a with
                      | none => simp [hkey, keyOfTexts]
                      | some key => simp [hkey, keyOfTexts, defaultOf?_eq hb]
            · rfl
          · have hother : (kind == .call) = false := by simpa using hcall
            simp only [isKeyCall, Node.kind_mk, hother, Bool.false_and]
            cases kind <;> first | rfl | exact absurd rfl hcall

end Localization.Occurrence
