import VersionedObjects.Store.World
import Mathlib.Data.List.Nodup

/-!
# Open tables and what readers see

A manager keeps its open generations in a table, each with the generations that were open before
it. The table is timely: it ascends, stays below the clock, and every entry names all older ones
that are still there. Hence no open frame is shown anything of another open frame.
-/

namespace VersionedObjects.Store

/-- Open generations, each with those that were open before it. -/
abbrev OpenTable := List (Generation × List Generation)

/-- The generations of the entries. -/
def OpenTable.generations (table : OpenTable) : List Generation :=
  table.map (·.1)

/-- The table without the entry of a generation. -/
def OpenTable.without (table : OpenTable) (g : Generation) : OpenTable :=
  table.filter fun entry => entry.1 != g

/-- Everyone who reads while the table stands: the open frames and a reader of the present. -/
def OpenTable.readers (table : OpenTable) (next : Generation) : List Visibility :=
  table.map (fun (g, invalid) => .ofFrame g invalid) ++ [.snapshot next table.generations]

/-- A generation is in the table if it has an entry. -/
@[simp] theorem OpenTable.mem_generations {table : OpenTable} {g : Generation} :
    g ∈ table.generations ↔ ∃ invalid, (g, invalid) ∈ table := by
  simp [generations]

/-- The other entries stay when a generation is closed. -/
@[simp] theorem OpenTable.mem_without {table : OpenTable} {g : Generation}
    {entry : Generation × List Generation} :
    entry ∈ table.without g ↔ entry ∈ table ∧ entry.1 ≠ g := by
  simp [without]

/-- The other generations stay open when one is closed. -/
theorem OpenTable.mem_generations_without {table : OpenTable} {g h : Generation} :
    h ∈ (table.without g).generations ↔ h ∈ table.generations ∧ h ≠ g := by
  simp only [mem_generations, mem_without, exists_and_right]

/-- To close a generation takes it off the list. -/
theorem OpenTable.generations_without (table : OpenTable) (g : Generation) :
    (table.without g).generations = table.generations.filter (· ≠ g) := by
  rw [without, generations, generations, List.filter_map]
  exact congrArg _ (List.filter_congr fun entry _ => by simp [bne, beq_eq_decide])

/-- One more generation is open when one is opened. -/
theorem OpenTable.mem_generations_append {table : OpenTable} {g h : Generation}
    {invalid : List Generation} :
    h ∈ OpenTable.generations (table ++ [(g, invalid)]) ↔ h ∈ table.generations ∨ h = g := by
  simp [generations]

/-- The readers alive are one for every open frame and one of the present. -/
theorem OpenTable.mem_readers {table : OpenTable} {next : Generation} {view : Visibility} :
    view ∈ table.readers next ↔
      (∃ entry ∈ table, view = .ofFrame entry.1 entry.2) ∨
        view = .snapshot next table.generations := by
  simp only [readers, List.mem_append, List.mem_map, List.mem_singleton, eq_comm]

/-! ## Views -/

/-- A view sees its own generation and all earlier ones that were not open when it was taken. -/
theorem Visibility.canSee_iff {view : Visibility} {g : Generation} :
    view.canSee g = true ↔
      (view.own = true ∧ g = view.generation) ∨ (g < view.generation ∧ g ∉ view.invalid) := by
  simp [canSee]

/-- A frame sees its own generation and older ones that were closed when it was opened. -/
theorem Visibility.canSee_ofFrame {g h : Generation} {invalid : List Generation} :
    (Visibility.ofFrame g invalid).canSee h = true ↔ h = g ∨ (h < g ∧ h ∉ invalid) := by
  simp [canSee_iff, ofFrame]

/-- A view of the present shows what is older than the clock and closed. -/
theorem Visibility.canSee_snapshot {upper h : Generation} {opened : List Generation} :
    (Visibility.snapshot upper opened).canSee h = true ↔ h < upper ∧ h ∉ opened := by
  simp [canSee_iff, snapshot]

/-- Nothing newer than the frame is shown to it. -/
theorem Visibility.le_of_canSee_ofFrame {g h : Generation} {invalid : List Generation}
    (hsee : (Visibility.ofFrame g invalid).canSee h = true) : h ≤ g := by
  rcases canSee_ofFrame.mp hsee with rfl | ⟨hlt, _⟩
  · exact Nat.le_refl _
  · exact Nat.le_of_lt hlt

/-! ## Timely tables -/

/-- The table ascends below the clock, and an entry names every older one. -/
structure Timely (next : Generation) (table : OpenTable) : Prop where
  ordered : table.Pairwise fun older newer => older.1 < newer.1 ∧ older.1 ∈ newer.2
  minted : ∀ entry ∈ table, entry.1 < next

namespace Timely

variable {next : Generation} {table : OpenTable}

/-- The empty table is timely. -/
theorem nil (next : Generation) : Timely next [] :=
  ⟨.nil, nofun⟩

/-- An open generation was taken from the clock. -/
theorem lt_of_mem (ht : Timely next table) {g : Generation} (hg : g ∈ table.generations) :
    g < next := by
  obtain ⟨invalid, hentry⟩ := OpenTable.mem_generations.mp hg
  exact ht.minted _ hentry

/-- What the clock has not given out is not open. -/
theorem next_notMem (ht : Timely next table) {n : Generation} (hn : next ≤ n) :
    n ∉ table.generations :=
  fun h => Nat.not_lt_of_le hn (ht.lt_of_mem h)

/-- The generations of a timely table are distinct. -/
theorem nodup (ht : Timely next table) : table.generations.Nodup :=
  List.pairwise_map.mpr (ht.ordered.imp fun h => Nat.ne_of_lt h.1)

/-- A generation has one entry. -/
theorem eq_of_mem (ht : Timely next table) {g : Generation} {invalid invalid' : List Generation}
    (h : (g, invalid) ∈ table) (h' : (g, invalid') ∈ table) : invalid = invalid' := by
  have := List.inj_on_of_nodup_map ht.nodup h h' rfl
  exact congrArg Prod.snd this

/-- An open frame is shown nothing of another open frame. -/
theorem hidden (ht : Timely next table) {g h : Generation} {invalid : List Generation}
    (hg : (g, invalid) ∈ table) (hh : h ∈ table.generations) (hne : h ≠ g) :
    (Visibility.ofFrame g invalid).canSee h = false := by
  obtain ⟨invalid', hentry⟩ := OpenTable.mem_generations.mp hh
  have hcase : h < g → h ∈ invalid :=
    List.Pairwise.forall_of_forall_of_flip
      (R := fun a b : Generation × List Generation => a.1 < b.1 → a.1 ∈ b.2)
      (fun _ _ hlt => absurd hlt (Nat.lt_irrefl _))
      (ht.ordered.imp fun hab _ => hab.2)
      (ht.ordered.imp fun hab hba => absurd hab.1 (Nat.lt_asymm hba)) hentry hg
  rw [Bool.eq_false_iff]
  intro hsee
  rcases Visibility.canSee_ofFrame.mp hsee with heq | ⟨hlt, hnot⟩
  · exact hne heq
  · exact hnot (hcase hlt)

/-- Opening the next generation keeps the table timely. -/
theorem openNext (ht : Timely next table) :
    Timely (next + 1) (table ++ [(next, table.generations)]) := by
  refine ⟨?_, ?_⟩
  · rw [List.pairwise_append]
    refine ⟨ht.ordered, List.pairwise_singleton _ _, fun entry hentry new hnew => ?_⟩
    rw [List.mem_singleton.mp hnew]
    exact ⟨ht.minted entry hentry, OpenTable.mem_generations.mpr ⟨entry.2, hentry⟩⟩
  · intro entry hentry
    rcases List.mem_append.mp hentry with hentry | hentry
    · exact Nat.lt_succ_of_lt (ht.minted entry hentry)
    · rw [List.mem_singleton.mp hentry]
      exact Nat.lt_succ_self next

/-- Closing a generation keeps the table timely. -/
theorem without (ht : Timely next table) (g : Generation) : Timely next (table.without g) :=
  ⟨ht.ordered.sublist List.filter_sublist,
    fun entry hentry => ht.minted entry (OpenTable.mem_without.mp hentry).1⟩

/-- The clock may run on. -/
theorem mono (ht : Timely next table) {later : Generation} (h : next ≤ later) :
    Timely later table :=
  ⟨ht.ordered, fun entry hentry => Nat.lt_of_lt_of_le (ht.minted entry hentry) h⟩

end Timely

end VersionedObjects.Store
