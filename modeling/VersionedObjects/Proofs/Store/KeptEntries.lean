import VersionedObjects.Proofs.Store.Changes

/-!
# What trimming keeps

The mask of a view keeps an entry of an ascending list for one of four reasons: it is above the
watermark, it is open, it is the newest entry that some reader can see, or an open entry was
branched from it. Nothing that a reason depends on is dropped, so readers find among the kept
entries what they found among all, and the same reasons keep every entry a second time. Main
statement: `kept_entries`.
-/

namespace VersionedObjects.Store

variable {α : Type}

/-- A chain with the entries of a list. -/
def Chain.ofEntries (entries : List Entry) : Chain Unit :=
  ⟨entries.map fun entry => { generation := entry.1, base := entry.2, value := () }⟩

/-- A chain made from entries has these entries. -/
theorem Chain.entries_ofEntries (entries : List Entry) : (ofEntries entries).entries = entries := by
  rw [ofEntries, Chain.entries, List.map_map]
  exact List.map_id' entries

/-- A chain of ascending entries ascends. -/
theorem Chain.ascending_of_entries {c : Chain α} (h : (c.entries.map (·.1)).Pairwise (· < ·)) :
    c.Ascending := by
  rwa [Chain.entries, List.map_map, List.pairwise_map] at h

namespace GcView

/-- The newest entry that a reader can see. -/
def newestSeen? (reader : Visibility) (entries : List Entry) : Option Entry :=
  entries.reverse.find? fun entry => reader.canSee entry.1

/-- The newest entry that a reader can see is that of the newest record it can see. -/
theorem newestSeen?_entries (c : Chain α) (reader : Visibility) :
    newestSeen? reader c.entries =
      (c.newest? fun r => reader.canSee r.generation).map fun r => (r.generation, r.base) := by
  rw [newestSeen?, Chain.newest?, Chain.entries, ← List.map_reverse, List.find?_map]
  rfl

section Ascending

variable {entries : List Entry} (ascending : (entries.map (·.1)).Pairwise (· < ·))
  (view : GcView) {reader : Visibility} {entry : Entry}

include ascending

/-- In an ascending list the newest entry that a reader can see is the one of the greatest
generation. -/
theorem newestSeen?_eq_some_iff :
    newestSeen? reader entries = some entry ↔ entry ∈ entries ∧ reader.canSee entry.1 = true ∧
      ∀ other ∈ entries, reader.canSee other.1 = true → other.1 ≤ entry.1 := by
  have hentries := Chain.entries_ofEntries entries
  generalize Chain.ofEntries entries = c at hentries
  subst hentries
  have hc := Chain.ascending_of_entries ascending
  rw [newestSeen?_entries]
  simp only [Option.map_eq_some_iff, hc.newest?_eq_some_iff, Chain.entries, List.mem_map]
  constructor
  · rintro ⟨r, ⟨hr, hsee, hmax⟩, rfl⟩
    refine ⟨⟨r, hr, rfl⟩, hsee, ?_⟩
    rintro _ ⟨s, hs, rfl⟩
    exact hmax s hs
  · rintro ⟨⟨r, hr, rfl⟩, hsee, hmax⟩
    exact ⟨r, ⟨hr, hsee, fun s hs => hmax _ ⟨s, hs, rfl⟩⟩, rfl⟩

/-- A reader selects the generation of an entry if it can see the entry and none that is newer. -/
theorem selected?_eq_some_iff (hentry : entry ∈ entries) :
    selected? reader entries = some entry.1 ↔ reader.canSee entry.1 = true ∧
      ∀ other ∈ entries, reader.canSee other.1 = true → other.1 ≤ entry.1 := by
  rw [selected?, ← newestSeen?, Option.map_eq_some_iff]
  constructor
  · rintro ⟨newest, hnewest, heq⟩
    rw [← heq]
    exact ((newestSeen?_eq_some_iff ascending).mp hnewest).2
  · intro h
    exact ⟨entry, (newestSeen?_eq_some_iff ascending).mpr ⟨hentry, h⟩, rfl⟩

/-- The four reasons to keep an entry. -/
theorem retains_iff_reason (hentry : entry ∈ entries) :
    view.retains entries entry = true ↔
      view.watermark ≤ entry.1 ∨ entry.1 ∈ view.opened ∨
        (∃ reader ∈ view.readers, reader.canSee entry.1 = true ∧
          ∀ other ∈ entries, reader.canSee other.1 = true → other.1 ≤ entry.1) ∨
        ∃ other ∈ entries, other.1 ∈ view.opened ∧ other.2 = some entry.1 := by
  simp only [retains, protects, Bool.or_eq_true, decide_eq_true_eq, List.contains_iff_mem,
    List.any_eq_true, beq_iff_eq, Bool.and_eq_true, selected?_eq_some_iff ascending hentry,
    or_assoc]

/-- The marked entries are those that the rule retains. -/
theorem marked_retainMask :
    marked entries (view.retainMask entries) = entries.filter (view.retains entries) := by
  rw [retainMask_eq_map_retains ascending, marked_map]

/-- The entries that are kept ascend. -/
theorem ascending_kept :
    ((entries.filter (view.retains entries)).map (·.1)).Pairwise (· < ·) :=
  ascending.sublist (List.filter_sublist.map _)

/-- What a reader of the view selects is kept, so the reader selects it again. -/
theorem newestSeen?_kept (hreader : reader ∈ view.readers) :
    newestSeen? reader (entries.filter (view.retains entries)) = newestSeen? reader entries := by
  cases hnewest : newestSeen? reader entries with
  | none =>
    rw [newestSeen?, List.find?_eq_none] at hnewest ⊢
    intro other hother
    rw [List.mem_reverse, List.mem_filter] at hother
    exact hnewest other (List.mem_reverse.mpr hother.1)
  | some newest =>
    obtain ⟨hmem, hsee, hmax⟩ := (newestSeen?_eq_some_iff ascending).mp hnewest
    have hkept : view.retains entries newest = true :=
      (retains_iff_reason ascending view hmem).mpr
        (.inr (.inr (.inl ⟨reader, hreader, hsee, hmax⟩)))
    exact (newestSeen?_eq_some_iff (ascending_kept ascending view)).mpr
      ⟨List.mem_filter.mpr ⟨hmem, hkept⟩, hsee, fun other hother =>
        hmax other (List.mem_filter.mp hother).1⟩

/-- An entry is kept a second time for the reason for which it was kept: neither what a reader
selects nor an open entry is dropped. -/
theorem retains_kept (hentry : entry ∈ entries) (h : view.retains entries entry = true) :
    view.retains (entries.filter (view.retains entries)) entry = true := by
  have hmem : entry ∈ entries.filter (view.retains entries) := List.mem_filter.mpr ⟨hentry, h⟩
  rw [retains_iff_reason ascending view hentry] at h
  rw [retains_iff_reason (ascending_kept ascending view) view hmem]
  refine h.imp id (Or.imp id (Or.imp ?_ ?_))
  · rintro ⟨reader, hreader, hsee, hmax⟩
    exact ⟨reader, hreader, hsee, fun other hother => hmax other (List.mem_filter.mp hother).1⟩
  · rintro ⟨other, hother, hopen, hbase⟩
    have hkept : view.retains entries other = true :=
      (retains_iff_reason ascending view hother).mpr (.inr (.inl hopen))
    exact ⟨other, List.mem_filter.mpr ⟨hother, hkept⟩, hopen, hbase⟩

/-- The mask of the kept entries marks them all. -/
theorem retainMask_kept :
    view.retainMask (entries.filter (view.retains entries)) =
      List.replicate (entries.filter (view.retains entries)).length true := by
  rw [retainMask_eq_map_retains (ascending_kept ascending view), List.map_eq_replicate_iff]
  intro entry hentry
  obtain ⟨hmem, hkept⟩ := List.mem_filter.mp hentry
  exact retains_kept ascending view hmem hkept

end Ascending

end GcView

namespace Chain

variable {c : Chain α} (hc : c.Ascending) (view : GcView)

include hc

/-- A trimmed chain has the entries that the rule retains, or all if it retains none. -/
theorem Ascending.entries_trim : (c.trim view).entries =
    if (c.entries.filter (view.retains c.entries)).isEmpty then c.entries
    else c.entries.filter (view.retains c.entries) := by
  have hfilter : c.entries.filter (view.retains c.entries) =
      (c.records.filter fun r => view.retains c.entries (r.generation, r.base)).map
        fun r => (r.generation, r.base) :=
    List.filter_map
  rw [Chain.entries, records_trim hc.entries, hfilter, List.isEmpty_map]
  dsimp only
  split <;> rfl

/-- To trim a chain again with the same view drops nothing. -/
theorem Ascending.trimCount_trim : (c.trim view).trimCount view = 0 := by
  have htrimmed := hc.trim view
  -- Either nothing was retained and the chain is as it was, or all that is left is retained again.
  have hagain : ((c.trim view).trim view).entries = (c.trim view).entries := by
    rw [htrimmed.entries_trim view, hc.entries_trim view]
    split
    · rfl
    · next hsome =>
      have hall : (c.entries.filter (view.retains c.entries)).filter
          (view.retains (c.entries.filter (view.retains c.entries))) =
          c.entries.filter (view.retains c.entries) :=
        List.filter_eq_self.mpr fun entry hentry =>
          GcView.retains_kept hc.entries view (List.mem_filter.mp hentry).1
            (List.mem_filter.mp hentry).2
      rw [hall, if_neg hsome]
  have hsize : ((c.trim view).trim view).size = (c.trim view).size := by
    simpa [Chain.entries, size] using congrArg List.length hagain
  rw [trimCount, hsize, Nat.sub_self]

end Chain

namespace GcView

/-- **What trimming keeps.** In an ascending list the mask keeps an entry if and only if its
generation is not below the watermark, or is open, or it is the newest entry that some reader of
the view can see, or an entry of an open generation was branched from it. So every reader selects
among the kept entries what it selects among all, every open entry is kept with its base, and
trimming with the same view again drops nothing, neither of the list nor of a chain with these
entries. -/
theorem kept_entries {entries : List Entry} (ascending : (entries.map (·.1)).Pairwise (· < ·))
    (view : GcView) :
    let mask := view.retainMask entries
    let kept := marked entries mask
    mask.length = entries.length ∧
    (∀ (i : Nat) (entry : Entry), entries[i]? = some entry →
      (mask[i]? = some true ↔
        view.watermark ≤ entry.1 ∨ entry.1 ∈ view.opened ∨
          (∃ reader ∈ view.readers, reader.canSee entry.1 = true ∧
            ∀ other ∈ entries, reader.canSee other.1 = true → other.1 ≤ entry.1) ∨
          ∃ other ∈ entries, other.1 ∈ view.opened ∧ other.2 = some entry.1)) ∧
    (∀ reader ∈ view.readers, newestSeen? reader kept = newestSeen? reader entries) ∧
    (∀ entry ∈ entries, entry.1 ∈ view.opened →
      entry ∈ kept ∧ ∀ base ∈ entries, entry.2 = some base.1 → base ∈ kept) ∧
    view.retainMask kept = List.replicate kept.length true ∧
    ∀ c : Chain α, c.entries = entries →
      (c.trim view).entries = (if kept.isEmpty then entries else kept) ∧
        (c.trim view).trimCount view = 0 := by
  dsimp only
  rw [marked_retainMask ascending]
  refine ⟨by rw [retainMask_eq_map_retains ascending, List.length_map], fun i entry hi => ?_,
    fun reader => newestSeen?_kept ascending view, fun entry hentry hopen => ?_,
    retainMask_kept ascending view, ?_⟩
  · rw [← retains_iff_reason ascending view (List.mem_of_getElem? hi),
      retainMask_eq_map_retains ascending, List.getElem?_map, hi, Option.map_some,
      Option.some.injEq]
  · have hkept := (retains_iff_reason ascending view hentry).mpr (.inr (.inl hopen))
    refine ⟨List.mem_filter.mpr ⟨hentry, hkept⟩, fun base hmem hbase => ?_⟩
    have hbasekept := (retains_iff_reason ascending view hmem).mpr
      (.inr (.inr (.inr ⟨entry, hentry, hopen, hbase⟩)))
    exact List.mem_filter.mpr ⟨hmem, hbasekept⟩
  · rintro c rfl
    have hc := Chain.ascending_of_entries ascending
    exact ⟨hc.entries_trim view, hc.trimCount_trim view⟩

/-- The newest of four entries is that of an open frame, which was branched from the second one
before the third was committed. A frame that was opened since selects the third. Only the first is
dropped, which nobody can reach. -/
theorem kept_entries_of_open_frames :
    let view : GcView :=
      { watermark := 6
        readers := [.ofFrame 6 [5], .ofFrame 9 [6], .snapshot 10 [6, 9]]
        opened := [6, 9] }
    let entries : List Entry := [(1, none), (2, some 1), (5, some 2), (6, some 2)]
    view.retainMask entries = [false, true, true, true] ∧
      newestSeen? (.ofFrame 9 [6]) [(2, some 1), (5, some 2), (6, some 2)] = some (5, some 2) ∧
      view.retainMask [(2, some 1), (5, some 2), (6, some 2)] = [true, true, true] := by
  intro view entries
  have hascending : (entries.map (·.1)).Pairwise (· < ·) := by decide
  obtain ⟨-, -, hselects, -, hagain, -⟩ := kept_entries (α := Unit) hascending view
  have hmask : view.retainMask entries = [false, true, true, true] := by decide +kernel
  rw [hmask] at hselects hagain
  exact ⟨hmask, (hselects (.ofFrame 9 [6]) (by decide)).trans (by decide), hagain⟩

end GcView

end VersionedObjects.Store
