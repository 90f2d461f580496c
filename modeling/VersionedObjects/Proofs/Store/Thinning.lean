import VersionedObjects.Proofs.Store.Ledger

/-!
# Thinned chains

A chain thins another one when it holds no more, and still holds what anybody can tell: the records
of open frames, a discarded record left alone, and what every reader inherits. Trimming thins
chains, and two chains of which one is part of the other stay so when both are changed alike.
-/

namespace VersionedObjects.Store

variable {α : Type}

namespace Chain

/-- The chain holds part of another one, and all of it that is open or discarded. -/
structure PartOf (d c : Chain α) (table : OpenTable) : Prop where
  subset : ∀ r ∈ d.records, r ∈ c.records
  opened : ∀ r ∈ c.records, r.generation ∈ table.generations → r ∈ d.records
  tombstone : ∀ r ∈ c.records, r.discarded = true → r ∈ d.records

/-- The chain holds part of another one, and all of it that matters to the readers alive. -/
structure Thins (d c : Chain α) (next : Generation) (table : OpenTable) : Prop
    extends PartOf d c table where
  inherited : ∀ reader ∈ table.readers next,
    d.inherited? table.generations reader = c.inherited? table.generations reader

variable {b c d : Chain α} {next : Generation} {table : OpenTable}

/-- A chain is a part of itself. -/
theorem PartOf.refl (c : Chain α) (table : OpenTable) : c.PartOf c table :=
  ⟨fun _ h => h, fun _ h _ => h, fun _ h _ => h⟩

/-- A part of a part is a part. -/
theorem PartOf.trans (h : b.PartOf c table) (h' : c.PartOf d table) : b.PartOf d table where
  subset r hr := h'.subset r (h.subset r hr)
  opened r hr hopen := h.opened r (h'.opened r hr hopen) hopen
  tombstone r hr hdiscarded := h.tombstone r (h'.tombstone r hr hdiscarded) hdiscarded

/-- A chain is itself, but for nothing. -/
theorem Thins.refl (c : Chain α) (next : Generation) (table : OpenTable) : c.Thins c next table :=
  ⟨.refl c table, fun _ _ => rfl⟩

/-- What is thinned twice is thinned. -/
theorem Thins.trans (h : b.Thins c next table) (h' : c.Thins d next table) :
    b.Thins d next table :=
  ⟨h.toPartOf.trans h'.toPartOf,
    fun reader hreader => (h.inherited reader hreader).trans (h'.inherited reader hreader)⟩

/-- A part of a chain has the same record of an open frame. -/
theorem PartOf.find?_eq (h : d.PartOf c table) (hd : d.Ascending) {g : Generation}
    (hg : g ∈ table.generations) : d.find? g = c.find? g := by
  refine hd.find?_congr ?_
  rintro r rfl
  exact ⟨h.subset r, fun hr => h.opened r hr hg⟩

/-- Trimming thins a coherent chain. -/
theorem Coherent.trim_thins (hc : c.Coherent next table) (ht : Timely next table) {view : GcView}
    (hreaders : view.readers = table.readers next) (hopened : view.opened = table.generations) :
    (c.trim view).Thins c next table where
  subset _ hr := (hc.ascending.trim_sublist view).subset hr
  opened _ hr hopen := hc.ascending.mem_trim_of_open hr (hopened ▸ hopen)
  tombstone r hr hdiscarded := by
    have hsole := hc.ascending.records_eq_singleton hr (hc.tombstone r hr hdiscarded).1
    rw [hc.ascending.trim_eq_self_of_sole hsole]
    exact hr
  inherited _ hreader := hc.inherited?_trim ht hreaders hopened hreader

/-! ## The same change to both chains -/

/-- A part stays one when a generation is opened, since no record has that one yet. -/
theorem PartOf.openNext (h : d.PartOf c table) (hc : c.Coherent next table)
    (invalid : List Generation) : d.PartOf c (table ++ [(next, invalid)]) where
  subset := h.subset
  opened r hr hopen := by
    rcases OpenTable.mem_generations_append.mp hopen with hopen | heq
    · exact h.opened r hr hopen
    · exact absurd heq (Nat.ne_of_lt (hc.minted r hr))
  tombstone := h.tombstone

/-- A part stays one when a generation is closed. -/
theorem PartOf.without (h : d.PartOf c table) (g : Generation) : d.PartOf c (table.without g) where
  subset := h.subset
  opened r hr hopen := h.opened r hr (OpenTable.mem_generations_without.mp hopen).1
  tombstone := h.tombstone

/-- A record may be linked into both chains. -/
theorem PartOf.link (h : d.PartOf c table) {r : Record α} (hc : c.find? r.generation = none)
    (hd : d.find? r.generation = none) : (d.link r).PartOf (c.link r) table where
  subset s hs := (mem_link hc).mpr (((mem_link hd).mp hs).imp_right (h.subset s))
  opened s hs hopen :=
    (mem_link hd).mpr (((mem_link hc).mp hs).imp_right fun hs => h.opened s hs hopen)
  tombstone s hs hdiscarded :=
    (mem_link hd).mpr (((mem_link hc).mp hs).imp_right fun hs => h.tombstone s hs hdiscarded)

/-- A record may be unlinked from both chains. -/
theorem PartOf.unlink (h : d.PartOf c table) {g : Generation} (hc : c.canUnlink g = true)
    (hd : d.canUnlink g = true) : (d.unlink g).PartOf (c.unlink g) table where
  subset r hr := (mem_unlink hc).mpr (((mem_unlink hd).mp hr).imp_left (h.subset r))
  opened r hr hopen :=
    (mem_unlink hd).mpr (((mem_unlink hc).mp hr).imp_left fun hr => h.opened r hr hopen)
  tombstone r hr hdiscarded :=
    (mem_unlink hd).mpr (((mem_unlink hc).mp hr).imp_left fun hr => h.tombstone r hr hdiscarded)

/-- A record is published in both chains in the place of that of a frame. -/
theorem PartOf.publish (h : d.PartOf c table) {g : Generation} {r : Record α}
    (hc : c.canUnlink g = true) (hd : d.canUnlink g = true)
    (hnew : ∀ s ∈ c.records, s.generation ≠ r.generation) :
    ((d.unlink g).link r).PartOf ((c.unlink g).link r) table := by
  have hfresh {e : Chain α} (he : ∀ s ∈ e.records, s.generation ≠ r.generation) :
      (e.unlink g).find? r.generation = none :=
    find?_eq_none_iff.mpr fun s hs => he s (mem_of_mem_unlink hs)
  exact (h.unlink hc hd).link (hfresh hnew) (hfresh fun s hs => hnew s (h.subset s hs))

/-- A frame is discarded in both chains. -/
theorem PartOf.discard (h : d.PartOf c table) (hc : c.Coherent next table)
    (hd : d.Coherent next table) {g : Generation} {invalid : List Generation}
    (hentry : (g, invalid) ∈ table) : (d.discard g).PartOf (c.discard g) table := by
  have hopen : g ∈ table.generations := OpenTable.mem_generations.mpr ⟨invalid, hentry⟩
  have hfind := h.find?_eq hd.ascending hopen
  cases hmine : c.find? g with
  | none =>
    rw [discard_eq_self hmine, discard_eq_self (hfind.trans hmine)]
    exact h
  | some mine =>
    obtain ⟨hmem, rfl⟩ := mem_of_find? hmine
    obtain ⟨hmem', -⟩ := mem_of_find? (hfind.trans hmine)
    by_cases hbase : mine.base = none
    · -- The frame made the object, so its record is alone in either chain.
      have hrecords := hc.ascending.records_eq_singleton hmem (hc.founded mine hmem hopen hbase)
      have hrecords' := hd.ascending.records_eq_singleton hmem' (hd.founded mine hmem' hopen hbase)
      have hsame : d = c := congrArg Chain.mk (hrecords'.trans hrecords.symm)
      rw [hsame]
      exact .refl _ _
    · have hunlink := hc.canUnlink_of_base hmem hentry hbase
      have hunlink' := hd.canUnlink_of_base hmem' hentry hbase
      rw [Chain.discard, Chain.discard, if_pos hunlink, if_pos hunlink']
      exact h.unlink hunlink hunlink'

/-- A value may be stored in both chains. -/
theorem PartOf.store (h : d.PartOf c table) (g : Generation) (change : α → α) :
    (d.store g change).PartOf (c.store g change) table where
  subset r hr := by
    obtain ⟨s, hs, rfl⟩ := mem_store.mp hr
    exact mem_store.mpr ⟨s, h.subset s hs, rfl⟩
  opened r hr hopen := by
    obtain ⟨s, hs, rfl⟩ := mem_store.mp hr
    rw [Record.stored_generation] at hopen
    exact mem_store.mpr ⟨s, h.opened s hs hopen, rfl⟩
  tombstone r hr hdiscarded := by
    obtain ⟨s, hs, rfl⟩ := mem_store.mp hr
    rw [Record.stored_discarded] at hdiscarded
    exact mem_store.mpr ⟨s, h.tombstone s hs hdiscarded, rfl⟩

end Chain

namespace Ledger

variable {l : Ledger α}

/-- Trimming leaves the clock and the table alone and thins every chain. -/
theorem Sound.run_trimmed (hl : l.Sound) (objects : List ObjectId) :
    let l' := l.run (objects.map .trimmed)
    l'.next = l.next ∧ l'.table = l.table ∧ ∀ o, (l'.chain o).Thins (l.chain o) l.next l.table := by
  induction objects generalizing l with
  | nil => exact ⟨rfl, rfl, fun o => .refl _ _ _⟩
  | cons p rest ih =>
    obtain ⟨hnext, htable, hthins⟩ := ih (hl.apply (.trimmed p))
    refine ⟨hnext, htable, fun o => (hthins o).trans ?_⟩
    rw [Ledger.apply, modifyChain_chain]
    split
    · exact (hl.coherent o).trim_thins hl.timely rfl rfl
    · exact .refl _ _ _

end Ledger

end VersionedObjects.Store
