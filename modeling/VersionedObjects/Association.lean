/-!
# Ordered maps

A map is a list of pairs. Keys keep the order in which they first came in.
-/

namespace VersionedObjects

/-- A map from texts, in order of insertion. -/
abbrev Association (α : Type) := List (String × α)

namespace Association

variable {α : Type}

/-- The value of a key. -/
def get? (m : Association α) (key : String) : Option α :=
  (m.find? (·.1 == key)).map (·.2)

/-- The map has a value for the key. -/
def has (m : Association α) (key : String) : Bool :=
  m.any (·.1 == key)

/-- Gives a key a value; a new key comes last. -/
def put (m : Association α) (key : String) (value : α) : Association α :=
  if m.has key then m.map fun entry => if entry.1 == key then (key, value) else entry
  else m ++ [(key, value)]

/-- The map of pairs, of which later ones count. -/
def ofPairs (pairs : List (String × α)) : Association α :=
  pairs.foldl (fun m entry => put m entry.1 entry.2) []

/-- The keys in order. -/
def keys (m : Association α) : List String :=
  m.map (·.1)

/-- The position of a key. -/
def position? (m : Association α) (key : String) : Option Nat :=
  m.findIdx? (·.1 == key)

/-- A key is there exactly when it has a value. -/
theorem has_eq_isSome_get? {m : Association α} {key : String} :
    m.has key = (m.get? key).isSome := by
  induction m with
  | nil => rfl
  | cons entry rest ih =>
    by_cases hk : entry.1 = key
    · simp [has, get?, hk]
    · have hb : (entry.1 == key) = false := by simpa using hk
      simpa [has, get?, hb] using ih

/-- A key has the value it was given last. -/
theorem get?_put_self {m : Association α} {key : String} (value : α) :
    (m.put key value).get? key = some value := by
  cases h : m.has key with
  | false =>
    have hn : m.get? key = none := by
      simpa [has_eq_isSome_get?] using h
    simp only [get?, Option.map_eq_none_iff] at hn
    simp [put, h, get?, List.find?_append, hn]
  | true =>
    simp only [put, h, if_true]
    induction m with
    | nil => simp [has] at h
    | cons entry rest ih =>
      by_cases hk : entry.1 = key
      · simp [get?, hk]
      · simpa [get?, hk] using ih (by simpa [has, hk] using h)

/-- Giving a key a value leaves the other keys alone. -/
theorem get?_put_of_ne {m : Association α} {key other : String} (value : α) (h : other ≠ key) :
    (m.put key value).get? other = m.get? other := by
  cases hm : m.has key with
  | false =>
    have hk : ¬ key = other := fun e => h e.symm
    simp [put, hm, get?, List.find?_append, hk]
  | true =>
    simp only [put, hm, if_true]
    clear hm
    induction m with
    | nil => rfl
    | cons entry rest ih =>
      by_cases hk : entry.1 = key
      · have ho : ¬ key = other := fun e => h e.symm
        simpa [get?, hk, ho] using ih
      · by_cases ho : entry.1 = other
        · simp [get?, ho, h]
        · simpa [get?, hk, ho] using ih

/-- A value put under a key that is there leaves the keys as they are. -/
theorem keys_put_of_has {m : Association α} {key : String} (value : α) (h : m.has key = true) :
    (m.put key value).keys = m.keys := by
  simp only [put, h, if_true, keys, List.map_map]
  apply List.map_congr_left
  intro entry _
  by_cases hk : entry.1 = key <;> simp [hk]

/-- A new key goes to the end. -/
theorem keys_put_of_not_has {m : Association α} {key : String} (value : α)
    (h : m.has key = false) : (m.put key value).keys = m.keys ++ [key] := by
  simp [put, h, keys]

end Association

end VersionedObjects
