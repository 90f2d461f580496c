import VersionedObjects.Proofs.Store.Ascending
import VersionedObjects.Proofs.Store.OpenTable

/-!
# Coherent chains

A record is committed when its frame is closed and was not discarded. What a reader finds in a
chain beside its own record is the newest committed record that it is shown, the record it
inherits. A chain is coherent with an open table when every open record was branched from the
record its frame inherits, and a frame that is shown a committed record is shown all older ones.
Every change that frames and trimming make to a chain keeps it coherent, and none changes what an
open frame inherits.
-/

namespace VersionedObjects.Store

variable {α : Type}

/-- The frame that wrote the record is closed and was not discarded. -/
def Record.isCommitted (r : Record α) (opened : List Generation) : Bool :=
  !r.discarded && !opened.contains r.generation

/-- A record is committed when it is not discarded and its generation is not open. -/
theorem Record.isCommitted_iff {r : Record α} {opened : List Generation} :
    r.isCommitted opened = true ↔ r.discarded = false ∧ r.generation ∉ opened := by
  simp [isCommitted]

namespace Chain

/-- The newest committed record that a view shows. -/
def inherited? (c : Chain α) (opened : List Generation) (view : Visibility) : Option (Record α) :=
  c.newest? fun r => r.isCommitted opened && view.canSee r.generation

/-- The inherited record is the committed one of the highest generation that the view can see. -/
theorem Ascending.inherited?_eq_some_iff {c : Chain α} (hc : c.Ascending)
    {opened : List Generation} {view : Visibility} {r : Record α} :
    c.inherited? opened view = some r ↔
      r ∈ c.records ∧ r.isCommitted opened = true ∧ view.canSee r.generation = true ∧
        ∀ s ∈ c.records, s.isCommitted opened = true → view.canSee s.generation = true →
          s.generation ≤ r.generation := by
  rw [inherited?, hc.newest?_eq_some_iff]
  simp only [Bool.and_eq_true, and_imp, and_assoc]

/-- Nothing is inherited exactly when the view sees no committed record. -/
theorem inherited?_eq_none_iff {c : Chain α} {opened : List Generation} {view : Visibility} :
    c.inherited? opened view = none ↔
      ∀ r ∈ c.records, r.isCommitted opened = true → view.canSee r.generation = false := by
  simp only [inherited?, newest?_eq_none_iff, Bool.and_eq_true, not_and, Bool.not_eq_true]

/-- A reader inherits the same from two chains that show it the same committed records. -/
theorem Ascending.inherited?_congr {c d : Chain α} (hc : c.Ascending) (hd : d.Ascending)
    {opened opened' : List Generation} {view : Visibility}
    (h : ∀ r, view.canSee r.generation = true →
      (r ∈ d.records ∧ r.isCommitted opened' = true ↔
        r ∈ c.records ∧ r.isCommitted opened = true)) :
    d.inherited? opened' view = c.inherited? opened view := by
  apply hc.newest?_congr hd
  intro r
  simp only [Bool.and_eq_true, ← and_assoc]
  constructor
  · rintro ⟨hr, hsee⟩
    exact ⟨(h r hsee).mp hr, hsee⟩
  · rintro ⟨hr, hsee⟩
    exact ⟨(h r hsee).mpr hr, hsee⟩

/-- A chain fits a clock and an open table. -/
structure Coherent (c : Chain α) (next : Generation) (table : OpenTable) : Prop where
  ascending : c.Ascending
  minted : ∀ r ∈ c.records, r.generation < next
  /-- A discarded record is alone and was made with its object. -/
  tombstone : ∀ r ∈ c.records, r.discarded = true →
    (∀ s ∈ c.records, s = r) ∧ r.base = none ∧ r.generation ∉ table.generations
  /-- The record an open frame made an object with is alone. -/
  founded : ∀ r ∈ c.records, r.generation ∈ table.generations → r.base = none →
    ∀ s ∈ c.records, s = r
  /-- Any other record of an open frame was branched from what the frame inherits. -/
  branched : ∀ r ∈ c.records, ∀ invalid, (r.generation, invalid) ∈ table → ∀ b, r.base = some b →
    ∃ s, c.inherited? table.generations (.ofFrame r.generation invalid) = some s ∧
      s.generation = b
  /-- Who is shown a committed record is shown all older ones. -/
  downward : ∀ entry ∈ table, ∀ r ∈ c.records, ∀ s ∈ c.records,
    r.isCommitted table.generations = true → s.isCommitted table.generations = true →
    r.generation ≤ s.generation → (Visibility.ofFrame entry.1 entry.2).canSee s.generation = true →
    (Visibility.ofFrame entry.1 entry.2).canSee r.generation = true

namespace Coherent

variable {c : Chain α} {next : Generation} {table : OpenTable}

/-- An object that was not made yet has nothing that could be amiss. -/
theorem of_empty (h : c.records = []) : c.Coherent next table where
  ascending := by simp [Ascending, h]
  minted := by simp [h]
  tombstone := by simp [h]
  founded := by simp [h]
  branched := by simp [h]
  downward := by simp [h]

/-- A chain of one record without a base is coherent. -/
theorem singleton {r : Record α} (hminted : r.generation < next) (hbase : r.base = none)
    (hdiscarded : r.discarded = false) : (Chain.singleton r).Coherent next table where
  ascending := ascending_singleton r
  minted := by simpa [Chain.singleton] using hminted
  tombstone := by simp [Chain.singleton, hdiscarded]
  founded := by simp [Chain.singleton]
  branched := by simp [Chain.singleton, hbase]
  downward := by
    intro entry _ s hs t ht _ _ _ hsee
    obtain rfl := List.mem_singleton.mp hs
    obtain rfl := List.mem_singleton.mp ht
    exact hsee

/-- The clock may run on. -/
theorem mono (hc : c.Coherent next table) {later : Generation} (h : next ≤ later) :
    c.Coherent later table :=
  { hc with minted := fun r hr => Nat.lt_of_lt_of_le (hc.minted r hr) h }

/-! ## What open frames and the present see -/

/-- A record of an open frame is not discarded. -/
theorem discarded_eq_false (hc : c.Coherent next table) {r : Record α} (hr : r ∈ c.records)
    (hopen : r.generation ∈ table.generations) : r.discarded = false := by
  rw [Bool.eq_false_iff]
  exact fun h => (hc.tombstone r hr h).2.2 hopen

/-- A frame selects its own record, or what it inherits. -/
theorem select?_ofFrame (hc : c.Coherent next table) (ht : Timely next table) {g : Generation}
    {invalid : List Generation} (hg : (g, invalid) ∈ table) :
    c.select? (.ofFrame g invalid) =
      (c.find? g).or (c.inherited? table.generations (.ofFrame g invalid)) := by
  have hgen : g ∈ table.generations := OpenTable.mem_generations.mpr ⟨invalid, hg⟩
  cases hmine : c.find? g with
  | none =>
    have hnone := find?_eq_none_iff.mp hmine
    rw [Option.none_or]
    apply hc.ascending.newest?_congr hc.ascending
    intro r
    simp only [Record.visibleTo, Bool.and_eq_true, Bool.not_eq_true', Record.isCommitted_iff]
    constructor
    · rintro ⟨hr, hdiscarded, hsee⟩
      refine ⟨hr, ⟨hdiscarded, fun hopen => ?_⟩, hsee⟩
      rw [ht.hidden hg hopen (hnone r hr)] at hsee
      cases hsee
    · rintro ⟨hr, ⟨hdiscarded, _⟩, hsee⟩
      exact ⟨hr, hdiscarded, hsee⟩
  | some mine =>
    obtain ⟨hmem, rfl⟩ := mem_of_find? hmine
    rw [Option.some_or]
    refine hc.ascending.newest?_eq_some_iff.mpr ⟨hmem, ?_, fun s _ hs => ?_⟩
    · simp only [Record.visibleTo, hc.discarded_eq_false hmem hgen, Bool.not_false, Bool.true_and]
      exact Visibility.canSee_ofFrame.mpr (Or.inl rfl)
    · simp only [Record.visibleTo, Bool.and_eq_true] at hs
      exact Visibility.le_of_canSee_ofFrame hs.2

/-- A reader of the present selects the newest committed record. -/
theorem select?_snapshot (c : Chain α) (next : Generation) (opened : List Generation) :
    c.select? (.snapshot next opened) = c.inherited? opened (.snapshot next opened) := by
  have hsame : (fun r : Record α => r.visibleTo (.snapshot next opened)) =
      fun r => r.isCommitted opened && (Visibility.snapshot next opened).canSee r.generation := by
    funext r
    rw [Bool.eq_iff_iff]
    simp only [Record.visibleTo, Bool.and_eq_true, Bool.not_eq_true', Record.isCommitted_iff,
      Visibility.canSee_snapshot]
    constructor
    · rintro ⟨hdiscarded, hlt, hclosed⟩
      exact ⟨⟨hdiscarded, hclosed⟩, hlt, hclosed⟩
    · rintro ⟨⟨hdiscarded, _⟩, hsee⟩
      exact ⟨hdiscarded, hsee⟩
  rw [select?, hsame, inherited?]

/-- The newest committed record has the greatest generation of all committed ones. -/
theorem inherited?_snapshot_eq_some_iff (hc : c.Coherent next table) {r : Record α} :
    c.inherited? table.generations (.snapshot next table.generations) = some r ↔
      r ∈ c.records ∧ r.isCommitted table.generations = true ∧
        ∀ s ∈ c.records, s.isCommitted table.generations = true →
          s.generation ≤ r.generation := by
  have hshown {s : Record α} (hs : s ∈ c.records)
      (hcommitted : s.isCommitted table.generations = true) :
      (Visibility.snapshot next table.generations).canSee s.generation = true :=
    Visibility.canSee_snapshot.mpr ⟨hc.minted s hs, (Record.isCommitted_iff.mp hcommitted).2⟩
  rw [hc.ascending.inherited?_eq_some_iff]
  constructor
  · rintro ⟨hr, hcommitted, _, hmax⟩
    exact ⟨hr, hcommitted, fun s hs hscommitted => hmax s hs hscommitted (hshown hs hscommitted)⟩
  · rintro ⟨hr, hcommitted, hmax⟩
    exact ⟨hr, hcommitted, hshown hr hcommitted, fun s hs hscommitted _ => hmax s hs hscommitted⟩

end Coherent

end Chain

end VersionedObjects.Store
