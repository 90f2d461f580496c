import VersionedObjects.Proofs.Store.Ascending

/-!
# Chains under edits

A chain starts with one record and is then linked into, unlinked from, discarded from and trimmed
in any order, whoever the readers are that trimming knows of. It never runs empty and stays
ascending. On such chains a search by halving comes to the place that a search from one end comes
to, so that the edits may be carried out by position. Main statement: `Chain.regular_edited`.
-/

namespace VersionedObjects

namespace Bisection

/-- Where a number that is not in an ascending list would have to be put. -/
def insertionPoint (numbers : List Nat) (n : Nat) : Nat :=
  let i := narrow numbers n 0 numbers.length
  match numbers[i]? with
  | some m => if m < n then i + 1 else i
  | none => i

section

variable {numbers : List Nat} (ascending : numbers.Pairwise (· < ·)) {n : Nat}

include ascending

/-- The numbers below a bound are the first ones. -/
theorem lt_iff_lt_length_takeWhile {i : Nat} (hi : i < numbers.length) :
    numbers[i] < n ↔ i < (numbers.takeWhile (· < n)).length := by
  induction numbers generalizing i with
  | nil => simp at hi
  | cons first rest ih =>
    obtain ⟨hfirst, hrest⟩ := List.pairwise_cons.mp ascending
    by_cases hn : first < n
    · rw [List.takeWhile_cons_of_pos (by simpa using hn), List.length_cons]
      cases i with
      | zero => simpa using hn
      | succ i => simpa using ih hrest (by simpa using hi)
    · rw [List.takeWhile_cons_of_neg (by simpa using hn), List.length_nil]
      cases i with
      | zero => simpa using hn
      | succ i =>
        have hlt := hfirst _ (List.getElem_mem (Nat.lt_of_succ_lt_succ hi))
        simp only [List.getElem_cons_succ, Nat.not_lt_zero, iff_false]
        omega

/-- The place of a number that is not in the list is next to the position left. -/
theorem narrow_bounds (hnew : n ∉ numbers) (low size : Nat) (hsize : 0 < size)
    (hlength : low + size ≤ numbers.length)
    (hlow : low = 0 ∨ low < (numbers.takeWhile (· < n)).length)
    (hhigh : (numbers.takeWhile (· < n)).length ≤ low + size) :
    let i := narrow numbers n low size
    i < numbers.length ∧ (i = 0 ∨ i < (numbers.takeWhile (· < n)).length) ∧
      (numbers.takeWhile (· < n)).length ≤ i + 1 := by
  fun_induction narrow numbers n low size with
  | case1 low size hone => exact ⟨by omega, hlow, by omega⟩
  | case2 low size hmany middle hless ih =>
    have hmiddle : middle < numbers.length := by omega
    have hplace := lt_iff_lt_length_takeWhile ascending hmiddle (n := n)
    rw [List.getElem?_eq_getElem hmiddle, Option.getD_some] at hless
    exact ih (by omega) (by omega) hlow (by omega)
  | case3 low size hmany middle hless ih =>
    have hmiddle : middle < numbers.length := by omega
    have hplace := lt_iff_lt_length_takeWhile ascending hmiddle (n := n)
    rw [List.getElem?_eq_getElem hmiddle, Option.getD_some] at hless
    have hne : numbers[middle] ≠ n := fun h => hnew (h ▸ List.getElem_mem hmiddle)
    exact ih (by omega) (by omega) (.inr (by omega)) (by omega)

/-- A new number goes behind all smaller ones. -/
theorem insertionPoint_eq (hnew : n ∉ numbers) :
    insertionPoint numbers n = (numbers.takeWhile (· < n)).length := by
  rcases Nat.eq_zero_or_pos numbers.length with hempty | hsize
  · simp [List.length_eq_zero_iff.mp hempty, insertionPoint, narrow]
  · have hle : (numbers.takeWhile (· < n)).length ≤ numbers.length :=
      (List.takeWhile_sublist _).length_le
    obtain ⟨hi, hlow, hhigh⟩ := narrow_bounds ascending hnew 0 numbers.length hsize (by omega)
      (.inl rfl) (by omega)
    have hplace := lt_iff_lt_length_takeWhile ascending hi (n := n)
    simp only [insertionPoint, List.getElem?_eq_getElem hi]
    split <;> omega

end

end Bisection

namespace Store

variable {α : Type}

namespace Chain

/-! ## Edits by position -/

/-- The position of the record of a generation, found by halving. -/
def position? (c : Chain α) (g : Generation) : Option Nat :=
  Bisection.position? (c.records.map (·.generation)) g

/-- The record of a generation, found by halving. -/
def search? (c : Chain α) (g : Generation) : Option (Record α) :=
  (c.position? g).bind (c.records[·]?)

/-- Links a record at the position found by halving, and gives the record of its generation. -/
def prepend (c : Chain α) (r : Record α) : Record α × Chain α :=
  match c.search? r.generation with
  | some existing => (existing, c)
  | none =>
    let i := Bisection.insertionPoint (c.records.map (·.generation)) r.generation
    (r, ⟨c.records.take i ++ r :: c.records.drop i⟩)

/-- Takes out the record at the position found by halving, and tells whether it was there and not
alone. -/
def remove (c : Chain α) (g : Generation) : Bool × Chain α :=
  match c.position? g with
  | some i => if 1 < c.size then (true, ⟨c.records.eraseIdx i⟩) else (false, c)
  | none => (false, c)

/-- Takes out the record of a discarded generation, or hides the one found by halving. -/
def withdraw (c : Chain α) (g : Generation) : Chain α :=
  match c.remove g, c.position? g with
  | (true, rest), _ => rest
  | (false, _), some i => ⟨c.records.modify i fun r => { r with discarded := true }⟩
  | (false, _), none => c

section

variable {c : Chain α} (hc : c.Ascending)

include hc

/-- The generations of an ascending chain ascend. -/
theorem Ascending.generations_pairwise : (c.records.map (·.generation)).Pairwise (· < ·) :=
  List.pairwise_map.mpr hc

/-- The position found is that of the record of the generation. -/
theorem Ascending.position?_eq_some_iff {g : Generation} {i : Nat} :
    c.position? g = some i ↔ ∃ r, c.records[i]? = some r ∧ r.generation = g := by
  rw [position?, Bisection.position?_eq_some_iff hc.generations_pairwise, List.getElem?_map,
    Option.map_eq_some_iff]

/-- A binary search finds what a look at every record does. -/
theorem Ascending.search?_eq (g : Generation) : c.search? g = c.find? g := by
  cases hfind : c.find? g with
  | none =>
    rw [search?, Option.bind_eq_none_iff]
    intro i hi
    obtain ⟨r, hr, hgen⟩ := hc.position?_eq_some_iff.mp hi
    exact absurd hgen (find?_eq_none_iff.mp hfind r (List.mem_of_getElem? hr))
  | some r =>
    obtain ⟨hmem, hgen⟩ := mem_of_find? hfind
    obtain ⟨i, hi⟩ := List.mem_iff_getElem?.mp hmem
    rw [search?, hc.position?_eq_some_iff.mpr ⟨r, hi, hgen⟩, Option.bind_some, hi]

/-- A search by position misses exactly what is not in the chain. -/
theorem Ascending.position?_eq_none_iff {g : Generation} :
    c.position? g = none ↔ c.find? g = none := by
  rw [← hc.search?_eq, search?, Option.bind_eq_none_iff]
  refine ⟨fun h i hi => (by rw [h] at hi; cases hi), fun h => ?_⟩
  cases hi : c.position? g with
  | none => rfl
  | some i =>
    obtain ⟨r, hr, -⟩ := hc.position?_eq_some_iff.mp hi
    exact absurd (h i hi) (by simp [hr])

/-- The place for a new record, found by halving, is the one found from the oldest record on. -/
theorem Ascending.prepend_eq (r : Record α) :
    c.prepend r = ((c.find? r.generation).getD r, c.link r) := by
  rw [prepend, hc.search?_eq]
  cases hfind : c.find? r.generation with
  | some existing => simp [Chain.link, hfind]
  | none =>
    have hnew : r.generation ∉ c.records.map (·.generation) := by
      rw [List.mem_map]
      rintro ⟨s, hs, hgen⟩
      exact find?_eq_none_iff.mp hfind s hs hgen
    have hplace := Bisection.insertionPoint_eq hc.generations_pairwise hnew
    rw [List.takeWhile_map, List.length_map] at hplace
    have htake : c.records.take (c.records.takeWhile (·.generation < r.generation)).length =
        c.records.takeWhile (·.generation < r.generation) :=
      (List.prefix_iff_eq_take.mp (List.takeWhile_prefix _)).symm
    have hdrop : c.records.drop (c.records.takeWhile (·.generation < r.generation)).length =
        c.records.dropWhile (·.generation < r.generation) := by
      have hsplit := List.take_append_drop
        (c.records.takeWhile (·.generation < r.generation)).length c.records
      rw [htake] at hsplit
      exact List.append_cancel_left (hsplit.trans List.takeWhile_append_dropWhile.symm)
    simp only [Option.getD_none, Chain.link, hfind, Option.isSome_none, Bool.false_eq_true,
      if_false, hplace, Function.comp_def, htake, hdrop]

/-- Where the record of a generation stands among the others. -/
theorem Ascending.split_of_position? {g : Generation} {i : Nat} (hi : c.position? g = some i) :
    ∃ before r after, c.records = before ++ r :: after ∧ before.length = i ∧ r.generation = g ∧
      ∀ s ∈ before ++ after, s.generation ≠ g := by
  obtain ⟨r, hr, rfl⟩ := hc.position?_eq_some_iff.mp hi
  obtain ⟨hlt, hget⟩ := List.getElem?_eq_some_iff.mp hr
  have hsplit : c.records = c.records.take i ++ r :: c.records.drop (i + 1) := by
    rw [← hget, List.getElem_cons_drop, List.take_append_drop]
  refine ⟨_, r, _, hsplit, List.length_take_of_le (Nat.le_of_lt hlt), rfl, fun s hs => ?_⟩
  have hsorted := hc
  rw [Ascending, hsplit, List.pairwise_append, List.pairwise_cons] at hsorted
  rcases List.mem_append.mp hs with hs | hs
  · exact Nat.ne_of_lt (hsorted.2.2 s hs r List.mem_cons_self)
  · exact (Nat.ne_of_lt (hsorted.2.1.1 s hs)).symm

/-- To remove a record by position unlinks it, and tells whether it was there and not the last one.
-/
theorem Ascending.remove_eq (g : Generation) : c.remove g = (c.canUnlink g, c.unlink g) := by
  cases hi : c.position? g with
  | none =>
    have hfind := hc.position?_eq_none_iff.mp hi
    simp [remove, hi, Chain.unlink, canUnlink, hfind]
  | some i =>
    have hfound : (c.find? g).isSome = true := by
      rw [Option.isSome_iff_ne_none]
      exact fun h => by rw [hc.position?_eq_none_iff.mpr h] at hi; cases hi
    simp only [remove, hi, Chain.unlink, canUnlink, hfound, Bool.and_true, decide_eq_true_eq]
    split
    · next hsize =>
      obtain ⟨before, r, after, hsplit, rfl, rfl, hne⟩ := hc.split_of_position? hi
      have hothers : (before ++ after).filter (·.generation != r.generation) = before ++ after :=
        List.filter_eq_self.mpr fun s hs => by simpa using hne s hs
      rw [List.filter_append] at hothers
      simp [hsize, hsplit, List.eraseIdx_append_of_length_le, hothers]
    · next hsize => simp [hsize]

/-- To withdraw a record by position discards it. -/
theorem Ascending.withdraw_eq (g : Generation) : c.withdraw g = c.discard g := by
  rw [withdraw, hc.remove_eq, Chain.discard]
  cases hunlink : c.canUnlink g with
  | true => rfl
  | false =>
    cases hi : c.position? g with
    | none => exact (Chain.modify_eq_self (hc.position?_eq_none_iff.mp hi) _).symm
    | some i =>
      obtain ⟨before, r, after, hsplit, rfl, rfl, hne⟩ := hc.split_of_position? hi
      have hothers (part : List (Record α)) (hpart : part ⊆ before ++ after) :
          part.map (fun s => if s.generation = r.generation then { s with discarded := true }
            else s) = part := by
        conv_rhs => rw [← List.map_id part]
        exact List.map_congr_left fun s hs => if_neg (hne s (hpart hs))
      have hlt : before.length < (before ++ r :: after).length := by simp
      dsimp only
      rw [if_neg Bool.false_ne_true, Chain.modify, hsplit, List.modify_eq_take_cons_drop hlt,
        List.map_append, List.map_cons, hothers before (List.subset_append_left ..),
        hothers after (List.subset_append_right ..)]
      simp

end

/-! ## What holds of every chain -/

/-- What can be relied on in a chain: its records ascend, a generation has at most one, and every
operation does to them what it promises and nothing else, by position as by search from an end. -/
structure Regular (c : Chain α) : Prop where
  nonempty : c.records ≠ []
  ascending : c.Ascending
  /-- A record is found exactly for the generations that have one. -/
  find : ∀ g r, c.find? g = some r ↔ r ∈ c.records ∧ r.generation = g
  search : ∀ g, c.search? g = c.find? g
  prepend : ∀ r, c.prepend r = ((c.find? r.generation).getD r, c.link r)
  /-- A generation that has a record keeps it. -/
  link_existing : ∀ r s, c.find? r.generation = some s → c.prepend r = (s, c)
  /-- A record of a new generation is added among the others. -/
  link_new : ∀ r, c.find? r.generation = none → ∃ before after,
    c.records = before ++ after ∧ c.prepend r = (r, ⟨before ++ r :: after⟩)
  remove : ∀ g, c.remove g = (c.canUnlink g, c.unlink g)
  /-- A record can be taken out just when it is there and not the only one. -/
  canUnlink : ∀ g, c.canUnlink g = true ↔
    (∃ r ∈ c.records, r.generation = g) ∧ ∃ s ∈ c.records, s.generation ≠ g
  /-- Exactly the record of the generation is taken out from among the others. -/
  unlink : ∀ g, c.canUnlink g = true → ∃ before r after,
    r.generation = g ∧ c.records = before ++ r :: after ∧ c.unlink g = ⟨before ++ after⟩
  unlink_refused : ∀ g, c.canUnlink g = false → c.unlink g = c
  withdraw : ∀ g, c.withdraw g = c.discard g
  /-- Trimming only drops records. -/
  trim : ∀ view, (c.trim view).records.Sublist c.records
  /-- A view selects the newest record that it shows and that was not discarded. -/
  select : ∀ view r, c.select? view = some r ↔
    r ∈ c.records ∧ r.discarded = false ∧ view.canSee r.generation = true ∧
      ∀ s ∈ c.records, s.discarded = false → view.canSee s.generation = true →
        s.generation ≤ r.generation

section

variable {c : Chain α} (hc : c.Ascending)

include hc

/-- A record can be unlinked if it is in the chain and is not the only one. -/
theorem Ascending.canUnlink_iff (hne : c.records ≠ []) {g : Generation} :
    c.canUnlink g = true ↔
      (∃ r ∈ c.records, r.generation = g) ∧ ∃ s ∈ c.records, s.generation ≠ g := by
  have hfound : (c.find? g).isSome = true ↔ ∃ r ∈ c.records, r.generation = g := by
    simp [find?, List.find?_isSome]
  rw [canUnlink, Bool.and_eq_true, decide_eq_true_eq, hfound, and_comm]
  refine and_congr_right fun hexists => ?_
  obtain ⟨r, hr, hgen⟩ := hexists
  constructor
  · intro hsize
    -- the first two records differ in generation, so one of them is another
    rcases hrecords : c.records with _ | ⟨s, _ | ⟨t, rest⟩⟩
    · exact absurd hrecords hne
    · simp [size, hrecords] at hsize
    · have hlt : s.generation < t.generation := by
        have hsorted := hc
        rw [Ascending, hrecords] at hsorted
        exact List.rel_of_pairwise_cons hsorted List.mem_cons_self
      by_cases hs : s.generation = g
      · exact ⟨t, by simp, fun ht => Nat.ne_of_lt hlt (hs.trans ht.symm)⟩
      · exact ⟨s, by simp, hs⟩
  · rintro ⟨s, hs, hother⟩
    have hunlink := canUnlink_of_mem hr hs fun h => hother (h ▸ hgen)
    rw [canUnlink, Bool.and_eq_true, decide_eq_true_eq] at hunlink
    exact hunlink.1

/-- A record that is unlinked leaves those before it and those after it. -/
theorem Ascending.unlink_split {g : Generation} (hunlink : c.canUnlink g = true) :
    ∃ before r after, r.generation = g ∧ c.records = before ++ r :: after ∧
      c.unlink g = ⟨before ++ after⟩ := by
  cases hi : c.position? g with
  | none => simp [canUnlink, hc.position?_eq_none_iff.mp hi] at hunlink
  | some i =>
    obtain ⟨before, r, after, hsplit, rfl, hgen, -⟩ := hc.split_of_position? hi
    have hremove := hc.remove_eq g
    have hsize : 1 < c.size := by
      rw [canUnlink, Bool.and_eq_true, decide_eq_true_eq] at hunlink
      exact hunlink.1
    rw [Chain.remove, hi] at hremove
    simp only [hsize, if_true, Prod.mk.injEq] at hremove
    refine ⟨before, r, after, hgen, hsplit, hremove.2.symm.trans ?_⟩
    rw [hsplit, List.eraseIdx_append_of_length_le (Nat.le_refl _), Nat.sub_self,
      List.eraseIdx_cons_zero]

/-- An ascending chain with a record can be relied on. -/
theorem Ascending.regular (hne : c.records ≠ []) : c.Regular where
  nonempty := hne
  ascending := hc
  find _ _ := hc.find?_eq_some_iff
  search := hc.search?_eq
  prepend := hc.prepend_eq
  link_existing r s hs := by simp [Chain.prepend, hc.search?_eq, hs]
  link_new r hr := by
    let i := Bisection.insertionPoint (c.records.map (·.generation)) r.generation
    refine ⟨c.records.take i, c.records.drop i, (List.take_append_drop i c.records).symm, ?_⟩
    simp only [Chain.prepend, hc.search?_eq, hr, i]
  remove := hc.remove_eq
  canUnlink _ := hc.canUnlink_iff hne
  unlink _ hunlink := hc.unlink_split hunlink
  unlink_refused g hunlink := by simp [Chain.unlink, hunlink]
  withdraw := hc.withdraw_eq
  trim := hc.trim_sublist
  select view r := by
    simp only [select?, hc.newest?_eq_some_iff, Record.visibleTo, Bool.and_eq_true,
      Bool.not_eq_true', and_assoc, and_imp]

end

end Chain

/-! ## Runs of edits -/

/-- An edit of a chain. -/
inductive Edit (α : Type) where
  /-- Links a record of any generation and base. -/
  | link (r : Record α)
  | unlink (g : Generation)
  | discard (g : Generation)
  /-- Trims for any readers. -/
  | trim (view : GcView)

namespace Edit

/-- The chain after an edit. -/
def apply (c : Chain α) : Edit α → Chain α
  | link r => c.link r
  | unlink g => c.unlink g
  | discard g => c.discard g
  | trim view => c.trim view

/-- The chain after an edit that goes by position. -/
def applyByPosition (c : Chain α) : Edit α → Chain α
  | link r => (c.prepend r).2
  | unlink g => (c.remove g).2
  | discard g => c.withdraw g
  | trim view => c.trim view

/-- An edit that goes by positions does what the edit says. -/
theorem applyByPosition_eq {c : Chain α} (hc : c.Ascending) (e : Edit α) :
    e.applyByPosition c = e.apply c := by
  cases e with
  | link r => exact congrArg Prod.snd (hc.prepend_eq r)
  | unlink g => exact congrArg Prod.snd (hc.remove_eq g)
  | discard g => exact hc.withdraw_eq g
  | trim view => rfl

/-- Every edit leaves an ascending chain ascending. -/
theorem ascending_apply {c : Chain α} (hc : c.Ascending) (e : Edit α) : (e.apply c).Ascending := by
  cases e with
  | link r => exact hc.link r
  | unlink g => exact hc.unlink g
  | discard g => exact hc.discard g
  | trim view => exact hc.trim view

/-- Each edit refuses to empty the chain by a rule of its own. -/
theorem nonempty_apply {c : Chain α} (hc : c.Ascending) (hne : c.records ≠ []) (e : Edit α) :
    (e.apply c).records ≠ [] := by
  have hunlink (g : Generation) (h : c.canUnlink g = true) : (c.unlink g).records ≠ [] := by
    obtain ⟨-, s, hs, hother⟩ := (hc.canUnlink_iff hne).mp h
    exact List.ne_nil_of_mem ((Chain.mem_unlink h).mpr ⟨hs, hother⟩)
  cases e with
  | link r =>
    change (c.link r).records ≠ []
    unfold Chain.link
    split
    · exact hne
    · simp
  | unlink g =>
    change (c.unlink g).records ≠ []
    cases h : c.canUnlink g with
    | true => exact hunlink g h
    | false => simpa [Chain.unlink, h] using hne
  | discard g =>
    change (c.discard g).records ≠ []
    unfold Chain.discard
    split
    · next h => exact hunlink g h
    · simpa [Chain.modify] using hne
  | trim view =>
    change (c.trim view).records ≠ []
    rw [Chain.records_trim hc.entries]
    dsimp only
    split
    · exact hne
    · next hkept => simpa using hkept

end Edit

namespace Chain

/-- The chain after edits in order. -/
def edited (c : Chain α) (edits : List (Edit α)) : Chain α :=
  edits.foldl Edit.apply c

/-- The chain after edits in order, all of which go by position. -/
def editedByPosition (c : Chain α) (edits : List (Edit α)) : Chain α :=
  edits.foldl Edit.applyByPosition c

/-- By induction on the edits that are left; each finds a chain that is ascending and not empty,
and leaves one. -/
theorem Ascending.edited {c : Chain α} (hc : c.Ascending) (hne : c.records ≠ [])
    (edits : List (Edit α)) :
    c.editedByPosition edits = c.edited edits ∧ (c.edited edits).Ascending ∧
      (c.edited edits).records ≠ [] := by
  induction edits generalizing c with
  | nil => exact ⟨rfl, hc, hne⟩
  | cons e rest ih =>
    rw [editedByPosition, List.foldl_cons, Edit.applyByPosition_eq hc]
    exact ih (Edit.ascending_apply hc e) (Edit.nonempty_apply hc hne e)

/-- **Chains stay regular.** Whatever is linked into a new chain, unlinked, discarded and trimmed,
and in whatever order, the chain never runs empty and its records ascend strictly, so that every
look-up and every further edit does exactly what it promises. Carried out by positions found by
halving, the edits make the same chain. -/
theorem regular_edited (g : Generation) (value : α) (edits : List (Edit α)) :
    let c := singleton { generation := g, base := none, value }
    (c.edited edits).Regular ∧ c.editedByPosition edits = c.edited edits := by
  intro c
  obtain ⟨hsame, hascending, hne⟩ := (ascending_singleton _).edited (List.cons_ne_nil _ _) edits
  exact ⟨hascending.regular hne, hsame⟩

/-- A record goes between two others, the oldest is taken out, and one that was discarded while it
was alone stays behind as a mark. -/
example :
    let c : Chain Nat := singleton { generation := 3, base := none, value := 0 }
    let r : Record Nat := { generation := 1, base := none, value := 7 }
    let s : Record Nat := { generation := 2, base := some 1, value := 8 }
    (c.edited [.link r, .link s, .link { s with value := 9 }]).records.map (·.value) =
        [7, 8, 0] ∧
      (c.edited [.link r, .unlink 3, .unlink 1]).records = [r] ∧
      (c.edited [.discard 3]).records.map (·.discarded) = [true] := by
  decide

end Chain

end Store

end VersionedObjects
