import VersionedObjects.Proofs.Store.ClosedRecords
import VersionedObjects.Proofs.Store.SnapshotReads
import VersionedObjects.Proofs.Store.Thinning

/-!
# Being overtaken

An open frame misses a committed record when it is not shown to it. As long as the frame is open
it is shown something of an object or it is not; and when it is, it comes to miss a record of the
object exactly when another frame that has a record of the object commits. No trimming hides that
this has happened.
-/

namespace VersionedObjects.Store

variable {α : Type}

/-- A committed one among closed records is shown to the view. -/
def Visibility.Shows (view : Visibility) (records : List (Record α)) : Prop :=
  ∃ r ∈ records, r.discarded = false ∧ view.canSee r.generation = true

/-- A committed one among closed records is not shown to the view. -/
def Visibility.Misses (view : Visibility) (records : List (Record α)) : Prop :=
  ∃ r ∈ records, r.discarded = false ∧ view.canSee r.generation = false

/-- Closed records before and after something happened, where the view was overtaken if the given
fact holds, and not otherwise. -/
structure Visibility.Overtaken (view : Visibility) (before after : List (Record α)) (fact : Prop) :
    Prop where
  shows_iff : view.Shows after ↔ view.Shows before
  misses : view.Misses before ∨ fact → view.Misses after
  cause : view.Shows before → view.Misses after → view.Misses before ∨ fact

namespace Visibility.Overtaken

variable {view : Visibility} {before between after : List (Record α)} {fact later : Prop}

/-- No view is overtaken where nothing changes. -/
theorem refl (view : Visibility) (records : List (Record α)) :
    view.Overtaken records records False :=
  ⟨Iff.rfl, fun h => h.resolve_right id, fun _ h => Or.inl h⟩

/-- A view that is overtaken in one of two steps is overtaken. -/
theorem trans (h : view.Overtaken before between fact) (h' : view.Overtaken between after later) :
    view.Overtaken before after (fact ∨ later) where
  shows_iff := h'.shows_iff.trans h.shows_iff
  misses := by
    rintro (hmisses | hfact | hlater)
    · exact h'.misses (Or.inl (h.misses (Or.inl hmisses)))
    · exact h'.misses (Or.inl (h.misses (Or.inr hfact)))
    · exact h'.misses (Or.inr hlater)
  cause hshows hmisses := by
    rcases h'.cause (h.shows_iff.mpr hshows) hmisses with hbetween | hlater
    · exact (h.cause hshows hbetween).imp_right Or.inl
    · exact Or.inr (Or.inr hlater)

/-- What a view was overtaken by may be put in another way. -/
theorem congr (h : view.Overtaken before after fact) (hiff : fact ↔ later) :
    view.Overtaken before after later :=
  propext hiff ▸ h

/-- An only record that is not shown, or was discarded, overtakes nobody. -/
theorem of_nil {r : Record α} (h : r.discarded = false → view.canSee r.generation = false) :
    view.Overtaken [] [r] False where
  shows_iff := by
    refine iff_of_false ?_ nofun
    rintro ⟨s, hs, hlive, hsee⟩
    rw [List.mem_singleton] at hs
    rw [hs, h (hs ▸ hlive)] at hsee
    cases hsee
  misses := by
    rintro (⟨_, hr, -⟩ | hfact)
    · cases hr
    · exact hfact.elim
  cause := nofun

/-- A committed record that is not shown overtakes the view. -/
theorem append {r : Record α} (hlive : r.discarded = false)
    (hsee : view.canSee r.generation = false) : view.Overtaken before (before ++ [r]) True where
  shows_iff := by
    constructor
    · rintro ⟨s, hs, hslive, hssee⟩
      rcases List.mem_append.mp hs with hs | hs
      · exact ⟨s, hs, hslive, hssee⟩
      · rw [List.mem_singleton.mp hs, hsee] at hssee
        cases hssee
    · rintro ⟨s, hs, hslive, hssee⟩
      exact ⟨s, List.mem_append_left _ hs, hslive, hssee⟩
  misses _ := ⟨r, List.mem_append_right _ (List.mem_singleton_self r), hlive, hsee⟩
  cause _ _ := Or.inr trivial

/-- A view that is shown and misses the same is not overtaken. -/
theorem of_iff (hshows : view.Shows after ↔ view.Shows before)
    (hmisses : view.Misses after ↔ view.Misses before) : view.Overtaken before after False where
  shows_iff := hshows
  misses h := hmisses.mpr (h.resolve_right id)
  cause _ h := Or.inl (hmisses.mp h)

end Visibility.Overtaken

namespace Chain

variable {c : Chain α} {next : Generation} {table : OpenTable}

/-- A view is shown a closed record exactly if it inherits one. -/
theorem shows_closed_iff {opened : List Generation} {view : Visibility} :
    view.Shows (c.closed opened) ↔ c.inherited? opened view ≠ none := by
  rw [ne_eq, inherited?_eq_none_iff]
  simp only [Visibility.Shows, mem_closed, Record.isCommitted_iff, not_forall, Bool.not_eq_false]
  constructor
  · rintro ⟨r, ⟨hr, hclosed⟩, hlive, hsee⟩
    exact ⟨r, hr, ⟨hlive, hclosed⟩, hsee⟩
  · rintro ⟨r, hr, ⟨hlive, hclosed⟩, hsee⟩
    exact ⟨r, ⟨hr, hclosed⟩, hlive, hsee⟩

/-- A frame that misses a committed record misses the newest one. -/
theorem Coherent.misses_closed_iff (hc : c.Coherent next table)
    {entry : Generation × List Generation} (hentry : entry ∈ table) :
    (Visibility.ofFrame entry.1 entry.2).Misses (c.closed table.generations) ↔
      ∃ newest, c.inherited? table.generations (.snapshot next table.generations) = some newest ∧
        (Visibility.ofFrame entry.1 entry.2).canSee newest.generation = false := by
  constructor
  · rintro ⟨r, hr, hlive, hsee⟩
    obtain ⟨hmem, hclosed⟩ := mem_closed.mp hr
    have hcommitted := Record.isCommitted_iff.mpr ⟨hlive, hclosed⟩
    have hshows : (Visibility.snapshot next table.generations).Shows
        (c.closed table.generations) :=
      ⟨r, hr, hlive, Visibility.canSee_snapshot.mpr ⟨hc.minted r hmem, hclosed⟩⟩
    obtain ⟨newest, hnewest⟩ := Option.ne_none_iff_exists'.mp (shows_closed_iff.mp hshows)
    obtain ⟨hnmem, hncommitted, hmax⟩ := hc.inherited?_snapshot_eq_some_iff.mp hnewest
    refine ⟨newest, hnewest, ?_⟩
    rw [Bool.eq_false_iff]
    intro hnsee
    rw [hc.downward entry hentry r hmem newest hnmem hcommitted hncommitted
      (hmax r hmem hcommitted) hnsee] at hsee
    cases hsee
  · rintro ⟨newest, hnewest, hsee⟩
    obtain ⟨hmem, hcommitted, -⟩ := hc.inherited?_snapshot_eq_some_iff.mp hnewest
    obtain ⟨hlive, hclosed⟩ := Record.isCommitted_iff.mp hcommitted
    exact ⟨newest, mem_closed.mpr ⟨hmem, hclosed⟩, hlive, hsee⟩

end Chain

namespace Ledger

variable {l : Ledger α} {entry : Generation × List Generation}

/-- The effect is a commit by a frame that has a record of the object. -/
def Publishing (l : Ledger α) (effect : Effect α) (o : ObjectId) : Prop :=
  ∃ g merges, effect = .committed g merges ∧ ((l.chain o).find? g).isSome = true

/-- What is not yet taken from the clock is shown to no open frame. -/
theorem Sound.canSee_of_next_le (hl : l.Sound) (hentry : entry ∈ l.table) {g : Generation}
    (hg : l.next ≤ g) : (Visibility.ofFrame entry.1 entry.2).canSee g = false := by
  rw [Bool.eq_false_iff]
  intro hsee
  exact Nat.not_lt_of_le (Nat.le_trans hg (Visibility.le_of_canSee_ofFrame hsee))
    (hl.timely.minted entry hentry)

/-- A commit lets the other open frames be overtaken if its frame has a record of the object. -/
theorem Sound.overtaken_committed (hl : l.Sound) {g : Generation} {merges : List (PendingMerge α)}
    (h : l.Admits (.committed g merges)) (hentry : entry ∈ l.table)
    (hopen : entry ∈ (l.apply (.committed g merges)).table) (o : ObjectId) :
    (Visibility.ofFrame entry.1 entry.2).Overtaken (l.closed o)
      ((l.apply (.committed g merges)).closed o) (l.Publishing (.committed g merges) o) := by
  rw [hl.closed_committed h]
  have hsome := h.isSome_revealed? o
  cases hr : l.revealed? g merges o with
  | none =>
    rw [hr] at hsome
    rw [Option.toList_none, List.append_nil]
    refine (Visibility.Overtaken.refl _ _).congr (iff_of_false id ?_)
    rintro ⟨g', merges', heq, hsome'⟩
    obtain ⟨rfl, -⟩ := Effect.committed.inj heq
    rw [← hsome] at hsome'
    cases hsome'
  | some r =>
    rw [hr] at hsome
    have hpublishes := hl.publishes h hr
    have hsee : (Visibility.ofFrame entry.1 entry.2).canSee r.generation = false := by
      rcases hpublishes.fresh with rfl | hfresh
      · exact hl.timely.hidden hentry h.mem_of_committed (OpenTable.mem_without.mp hopen).2.symm
      · exact hl.canSee_of_next_le hentry hfresh
    exact (Visibility.Overtaken.append hpublishes.live hsee).congr
      (iff_of_true trivial ⟨g, merges, rfl, hsome.symm⟩)

/-- An effect lets an open frame be overtaken only if another frame commits by it that has a record
of the object. -/
theorem Sound.overtaken_apply (hl : l.Sound) {effect : Effect α} (h : l.Admits effect)
    (hentry : entry ∈ l.table) (hopen : entry ∈ (l.apply effect).table) (o : ObjectId) :
    (Visibility.ofFrame entry.1 entry.2).Overtaken (l.closed o) ((l.apply effect).closed o)
      (l.Publishing effect o) := by
  by_cases hcommits : ∃ g merges, effect = .committed g merges
  · obtain ⟨g, merges, rfl⟩ := hcommits
    exact hl.overtaken_committed h hentry hopen o
  have hnone : ¬ l.Publishing effect o := by
    rintro ⟨g, merges, heq, -⟩
    exact hcommits ⟨g, merges, heq⟩
  have hc := hl.coherent o
  refine Visibility.Overtaken.congr ?_ (iff_of_false id hnone)
  rw [hl.closed_apply h]
  unfold closedAfter
  cases effect with
  | opened | founded | branched => exact .refl _ _
  | created p value =>
    dsimp only
    split
    · next heq =>
      subst heq
      cases h with
      | created hnil =>
      rw [closed_of_empty hnil]
      exact .of_nil fun _ => hl.canSee_of_next_le hentry (Nat.le_refl _)
    · exact .refl _ _
  | committed g merges => exact absurd ⟨g, merges, rfl⟩ hcommits
  | discarded g =>
    dsimp only
    split
    · next mine hmine =>
      split
      · next hbase =>
        cases h with
        | discarded hg =>
        obtain ⟨hmem, hgen⟩ := Chain.mem_of_find? hmine
        rw [(hl.closed_of_founded hmem (hgen ▸ hg) hbase).2]
        refine .of_nil fun hlive => ?_
        cases hlive
      · exact .refl _ _
    · exact .refl _ _
  | trimmed p =>
    dsimp only
    split
    · have hreaders : l.view.readers = l.table.readers l.next := rfl
      have hthins := hc.trim_thins hl.timely hreaders rfl
      have hc' := hc.trim hl.timely hreaders rfl
      have hshows := hthins.inherited _ (OpenTable.mem_readers.mpr (Or.inl ⟨entry, hentry, rfl⟩))
      have hnewest := hthins.inherited _ (OpenTable.mem_readers.mpr (Or.inr rfl))
      refine .of_iff ?_ ?_
      · rw [closed, Chain.shows_closed_iff, Chain.shows_closed_iff, hshows]
      · rw [hc'.misses_closed_iff hentry, closed, hc.misses_closed_iff hentry, hnewest]
    · exact .refl _ _
  | stored p g change =>
    dsimp only
    split
    · refine .of_iff ?_ ?_
      · simp only [Visibility.Shows, List.mem_map, exists_exists_and_eq_and,
          Record.stored_discarded, Record.stored_generation]
      · simp only [Visibility.Misses, List.mem_map, exists_exists_and_eq_and,
          Record.stored_discarded, Record.stored_generation]
    · exact .refl _ _

/-- Effects among which there is no commit let no open frame be overtaken. -/
theorem Sound.overtaken_run (hl : l.Sound) {effects : List (Effect α)}
    (hadmits : l.AdmitsAll effects) (hentry : entry ∈ l.table)
    (hopen : entry ∈ (l.run effects).table)
    (hnone : ∀ g merges, .committed g merges ∉ effects) (o : ObjectId) :
    (Visibility.ofFrame entry.1 entry.2).Overtaken (l.closed o) ((l.run effects).closed o)
      False := by
  induction effects generalizing l with
  | nil => exact .refl _ _
  | cons effect rest ih =>
    have hstay : entry ∈ (l.apply effect).table := mem_table_of_mem_run hopen
      (Nat.lt_of_lt_of_le (hl.timely.minted entry hentry) (l.next_le_apply effect))
    have hrest := ih (hl.apply hadmits.1) hadmits.2 hstay hopen
      fun g merges h => hnone g merges (List.mem_cons_of_mem _ h)
    refine ((hl.overtaken_apply hadmits.1 hentry hstay o).trans hrest).congr ?_
    rw [or_false, iff_false]
    rintro ⟨g, merges, rfl, -⟩
    exact hnone g merges List.mem_cons_self

end Ledger

end VersionedObjects.Store
