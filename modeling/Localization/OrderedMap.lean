/-!
Maps that keep their entries in the order in which the keys came first.
-/

namespace Localization

/-- Pairs of keys and values; each key stands once. -/
structure OrderedMap (α : Type) where
  entries : List (String × α)
  deriving Repr, Inhabited

instance {α : Type} [DecidableEq α] : DecidableEq (OrderedMap α) := fun a b =>
  match a, b with
  | ⟨x⟩, ⟨y⟩ =>
    if h : x = y then isTrue (h ▸ rfl) else isFalse fun e => h (OrderedMap.mk.inj e)

namespace OrderedMap

variable {α : Type}

def empty : OrderedMap α :=
  ⟨[]⟩

def get? (m : OrderedMap α) (key : String) : Option α :=
  m.entries.lookup key

def contains (m : OrderedMap α) (key : String) : Bool :=
  m.entries.any fun e => e.1 == key

def insertEntry (key : String) (value : α) : List (String × α) → List (String × α)
  | [] => [(key, value)]
  | e :: rest => if e.1 = key then (key, value) :: rest else e :: insertEntry key value rest

/-- Gives a key a value. A key that is there keeps its place. -/
def insert (m : OrderedMap α) (key : String) (value : α) : OrderedMap α :=
  ⟨insertEntry key value m.entries⟩

theorem lookup_cons_eq (e : String × α) (rest : List (String × α)) (key : String) :
    (e :: rest).lookup key = if key = e.1 then some e.2 else rest.lookup key := by
  obtain ⟨first, value⟩ := e
  rw [List.lookup_cons]
  by_cases h : key = first
  · simp [h]
  · simp [beq_false_of_ne h, h]

theorem get?_insert (m : OrderedMap α) (key other : String) (value : α) :
    (m.insert key value).get? other = if other = key then some value else m.get? other := by
  obtain ⟨entries⟩ := m
  simp only [insert, get?]
  induction entries with
  | nil => exact lookup_cons_eq (key, value) [] other
  | cons e rest ih =>
      rw [insertEntry]
      split
      · next hfirst =>
          rw [lookup_cons_eq, lookup_cons_eq, hfirst]
          split
          · rfl
          · rfl
      · next hfirst =>
          rw [lookup_cons_eq, lookup_cons_eq, ih]
          by_cases h : other = e.1
          · rw [if_pos h, if_neg (h ▸ hfirst), if_pos h]
          · rw [if_neg h, if_neg h]

def keys (m : OrderedMap α) : List String :=
  m.entries.map Prod.fst

def size (m : OrderedMap α) : Nat :=
  m.entries.length

def isEmpty (m : OrderedMap α) : Bool :=
  m.entries.isEmpty

/-- Inserts the entries of a second map in their order. -/
def extend (m other : OrderedMap α) : OrderedMap α :=
  other.entries.foldl (fun m e => m.insert e.1 e.2) m

/-- The map of some entries; of those with one key the last counts. -/
def ofList (entries : List (String × α)) : OrderedMap α :=
  entries.foldl (fun m e => m.insert e.1 e.2) empty

end OrderedMap

end Localization
