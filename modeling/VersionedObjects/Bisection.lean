/-!
# Search by halving

The position of a number in an ascending list, found by halving the part of the list where it can
be. In a list that is not ascending the search may miss a number that is there, and of equal
numbers any may be found. Main statement: in an ascending list the search finds exactly what is
there.
-/

namespace VersionedObjects.Bisection

/-- The one position left of the `size` positions from `low` on, after the half in which the number
cannot be has been dropped again and again. -/
def narrow (numbers : List Nat) (n : Nat) (low size : Nat) : Nat :=
  if size ≤ 1 then low
  else
    let middle := low + size / 2
    if n < numbers[middle]?.getD 0 then narrow numbers n low (size - size / 2)
    else narrow numbers n middle (size - size / 2)
termination_by size

/-- The position of a number in an ascending list. -/
def position? (numbers : List Nat) (n : Nat) : Option Nat :=
  let i := narrow numbers n 0 numbers.length
  if numbers[i]? = some n then some i else none

/-- In an ascending list the position of the number is never dropped. -/
theorem narrow_eq {numbers : List Nat} (ascending : numbers.Pairwise (· < ·)) {n i : Nat}
    (hi : numbers[i]? = some n) (low size : Nat) (hlow : low ≤ i) (hsize : i < low + size)
    (hlength : low + size ≤ numbers.length) : narrow numbers n low size = i := by
  fun_induction narrow numbers n low size with
  | case1 => omega
  | case2 low size _ middle hless ih =>
    refine ih hlow ?_ (by omega)
    obtain ⟨hil, rfl⟩ := List.getElem?_eq_some_iff.1 hi
    rw [List.getElem?_eq_getElem (by omega : middle < numbers.length), Option.getD_some] at hless
    by_cases him : i < middle
    · omega
    · rcases Nat.eq_or_lt_of_le (Nat.le_of_not_lt him) with rfl | hlt
      · omega
      · have := List.pairwise_iff_getElem.1 ascending middle i (by omega) hil hlt
        omega
  | case3 low size _ middle hless ih =>
    refine ih ?_ (by omega) (by omega)
    obtain ⟨hil, rfl⟩ := List.getElem?_eq_some_iff.1 hi
    rw [List.getElem?_eq_getElem (by omega : middle < numbers.length), Option.getD_some] at hless
    by_cases him : i < middle
    · have := List.pairwise_iff_getElem.1 ascending i middle hil (by omega) him
      omega
    · omega

/-- In an ascending list the search finds exactly what is there. -/
theorem position?_eq_some_iff {numbers : List Nat} (ascending : numbers.Pairwise (· < ·))
    {n i : Nat} : position? numbers n = some i ↔ numbers[i]? = some n := by
  constructor
  · intro h
    simp only [position?] at h
    split at h
    · next hn =>
      cases h
      exact hn
    · cases h
  · intro hi
    obtain ⟨hil, _⟩ := List.getElem?_eq_some_iff.1 hi
    simp only [position?]
    rw [narrow_eq ascending hi 0 numbers.length (by omega) (by omega) (by omega), if_pos hi]

end VersionedObjects.Bisection
