import Mathlib.Tactic.Tauto
import VersionedObjects.Association

/-!
# Maps of pairs

A map of pairs with different keys is the list of the pairs, and what the values of all pairs have
in common the values of the map have too.
-/

namespace VersionedObjects.Association

variable {α : Type}

/-- A key is missing exactly when no entry has it. -/
theorem has_eq_false_iff {m : Association α} {key : String} :
    m.has key = false ↔ key ∉ m.map (·.1) := by
  rw [has, List.any_eq_false, List.mem_map, not_exists]
  exact forall_congr' fun entry => by simp

/-- What all values have in common they have in common with one more. -/
theorem forall_put {P : α → Prop} {m : Association α} (hm : ∀ entry ∈ m, P entry.2) (key : String)
    {value : α} (hvalue : P value) : ∀ entry ∈ m.put key value, P entry.2 := by
  intro entry hentry
  unfold put at hentry
  split at hentry
  · obtain ⟨old, hold, rfl⟩ := List.mem_map.mp hentry
    split
    · exact hvalue
    · exact hm old hold
  · rcases List.mem_append.mp hentry with hentry | hentry
    · exact hm entry hentry
    · rw [List.mem_singleton.mp hentry]
      exact hvalue

/-- What holds of every value in a list of pairs holds of every value in its association. -/
theorem forall_ofPairs {P : α → Prop} {pairs : List (String × α)}
    (h : ∀ entry ∈ pairs, P entry.2) : ∀ entry ∈ ofPairs pairs, P entry.2 := by
  have hfold (m : Association α) (hm : ∀ entry ∈ m, P entry.2) :
      ∀ entry ∈ pairs.foldl (fun m entry => m.put entry.1 entry.2) m, P entry.2 := by
    induction pairs generalizing m with
    | nil => exact hm
    | cons first rest ih =>
      rw [List.forall_mem_cons] at h
      exact ih h.2 _ (forall_put hm first.1 h.1)
  exact hfold [] nofun

/-- Pairs with different keys are a map already. -/
theorem ofPairs_eq_self {pairs : List (String × α)} (h : (pairs.map (·.1)).Nodup) :
    ofPairs pairs = pairs := by
  have hfold (m : Association α) (hm : ((m ++ pairs).map (·.1)).Nodup) :
      pairs.foldl (fun m entry => m.put entry.1 entry.2) m = m ++ pairs := by
    clear h
    induction pairs generalizing m with
    | nil => simp
    | cons first rest ih =>
      have hnew : m.has first.1 = false := by
        rw [has_eq_false_iff]
        rw [List.map_append, List.nodup_append] at hm
        exact fun hmem => hm.2.2 _ hmem _ (by simp) rfl
      have hput : m.put first.1 first.2 = m ++ [first] := by simp [put, hnew]
      rw [List.foldl_cons, hput, ih (m ++ [first]) (by simpa using hm)]
      simp
  exact hfold [] (by simpa using h)

/-- A map has the keys it had and the one that is put into it. -/
theorem has_put (m : Association α) (key other : String) (value : α) :
    (m.put key value).has other = true ↔ other = key ∨ m.has other = true := by
  by_cases h : other = key
  · subst h
    simp [has_eq_isSome_get?, get?_put_self]
  · simp [has_eq_isSome_get?, get?_put_of_ne value h, h]

/-- The map of pairs has their keys. -/
theorem has_ofPairs {pairs : List (String × α)} {key : String} :
    (ofPairs pairs).has key = true ↔ key ∈ pairs.map (·.1) := by
  have hfold (m : Association α) :
      (pairs.foldl (fun m entry => m.put entry.1 entry.2) m).has key = true ↔
        m.has key = true ∨ key ∈ pairs.map (·.1) := by
    induction pairs generalizing m with
    | nil => simp
    | cons first rest ih =>
      rw [List.foldl_cons, ih, has_put, List.map_cons, List.mem_cons]
      tauto
  exact (hfold []).trans (or_iff_right nofun)

end VersionedObjects.Association
