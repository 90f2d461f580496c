import VersionedObjects.Proofs.Store.Changes
import VersionedObjects.Store.Lifecycle

/-!
# What a commit finds in a coherent chain

A commit looks for a committed record that its frame was never shown. In a coherent chain such a
record, if there is one, is the newest committed record of all, and the base of the frame's own
record is still there. So the check has two outcomes: the frame was shown everything that is
committed, or its own record, its base and the newest committed record are merged.
-/

namespace VersionedObjects.Store

variable {α : Type} {next : Generation} {table : OpenTable}

/-- The frame of a view has a record, and the newest committed record was not shown to it. -/
structure Chain.Contended (c : Chain α) (next : Generation) (table : OpenTable)
    (view : Visibility) (mine base newest : Record α) : Prop where
  mine_eq : c.find? view.generation = some mine
  inherited : c.inherited? table.generations view = some base
  base_eq : mine.base = some base.generation
  newest_eq :
    c.inherited? table.generations (.snapshot next table.generations) = some newest
  unseen : view.canSee newest.generation = false

namespace Chain.Contended

variable {c : Chain α} {view : Visibility} {mine base newest : Record α}

/-- The newest record of a contended chain is one of its records. -/
theorem mem_newest (h : c.Contended next table view mine base newest)
    (hc : c.Coherent next table) : newest ∈ c.records :=
  (hc.inherited?_snapshot_eq_some_iff.mp h.newest_eq).1

/-- The newest record of a contended chain is committed. -/
theorem newest_committed (h : c.Contended next table view mine base newest)
    (hc : c.Coherent next table) : newest.isCommitted table.generations = true :=
  (hc.inherited?_snapshot_eq_some_iff.mp h.newest_eq).2.1

/-- The base of the frame's record is found by its generation. -/
theorem find?_base (h : c.Contended next table view mine base newest)
    (hc : c.Coherent next table) : c.find? base.generation = some base :=
  hc.ascending.find?_eq_some_iff.mpr
    ⟨(hc.ascending.inherited?_eq_some_iff.mp h.inherited).1, rfl⟩

/-- The frame's own record can be taken out. -/
theorem canUnlink (h : c.Contended next table view mine base newest)
    (hc : c.Coherent next table) (hg : view.generation ∈ table.generations) :
    c.canUnlink view.generation = true := by
  obtain ⟨hmine, hgen⟩ := mem_of_find? h.mine_eq
  refine hgen ▸ canUnlink_of_mem hmine (h.mem_newest hc) ?_
  rintro rfl
  exact (Record.isCommitted_iff.mp (h.newest_committed hc)).2 (hgen ▸ hg)

/-- The record that a merge publishes takes the place of the frame's own. -/
theorem mem_publish {g : Generation} {invalid : List Generation}
    (h : c.Contended next table (.ofFrame g invalid) mine base newest)
    (hc : c.Coherent next table) (hg : g ∈ table.generations) {r s : Record α}
    (hnext : next ≤ r.generation) :
    s ∈ ((c.unlink g).link r).records ↔ s = r ∨ (s ∈ c.records ∧ s.generation ≠ g) := by
  obtain ⟨hmine, hgen⟩ := mem_of_find? h.mine_eq
  have hgen : mine.generation = g := hgen
  refine Chain.mem_publish hmine hgen (h.mem_newest hc) ?_ fun t ht =>
    Nat.ne_of_lt (Nat.lt_of_lt_of_le (hc.minted t ht) hnext)
  rintro rfl
  exact (Record.isCommitted_iff.mp (h.newest_committed hc)).2 (hgen ▸ hg)

end Chain.Contended

/-- The commit check of a frame in a coherent chain: either the frame was shown every committed
record or has none of its own, or the outcome is that of the merge. -/
theorem Object.checkCommit_cases {object : Object α} (hc : object.chain.Coherent next table)
    {g : Generation} {invalid : List Generation}
    (hg : (g, invalid) ∈ table) {isOpen : Generation → Bool}
    (hisOpen : ∀ h, isOpen h = true ↔ h ∈ table.generations) :
    (object.checkCommit (.ofFrame g invalid) isOpen = .clean ∧
      ∀ mine ∈ object.chain.records, mine.generation = g → ∀ s ∈ object.chain.records,
        s.isCommitted table.generations = true →
        (Visibility.ofFrame g invalid).canSee s.generation = true) ∨
    ∃ mine base newest,
      object.chain.Contended next table (.ofFrame g invalid) mine base newest ∧
        object.checkCommit (.ofFrame g invalid) isOpen =
          match object.merge mine.value base.value newest.value with
          | some value => .merge newest.generation value
          | none => .conflict newest.generation := by
  have hopen : g ∈ table.generations := OpenTable.mem_generations.mpr ⟨invalid, hg⟩
  have hunseen (r : Record α) :
      (r.generation != (Visibility.ofFrame g invalid).generation && !r.discarded &&
        !(Visibility.ofFrame g invalid).canSee r.generation && !isOpen r.generation) =
      (r.isCommitted table.generations && !(Visibility.ofFrame g invalid).canSee r.generation) := by
    have hown : (Visibility.ofFrame g invalid).canSee r.generation = false →
        r.generation ≠ g := by
      intro hsee heq
      rw [Visibility.canSee_ofFrame.mpr (Or.inl heq)] at hsee
      cases hsee
    have hclosed : isOpen r.generation = false ↔ r.generation ∉ table.generations := by
      rw [← hisOpen, Bool.not_eq_true]
    rw [Bool.eq_iff_iff]
    simp only [Bool.and_eq_true, bne_iff_ne, Bool.not_eq_true', Record.isCommitted_iff, hclosed]
    constructor
    · rintro ⟨⟨⟨_, hlive⟩, hsee⟩, hnot⟩
      exact ⟨⟨hlive, hnot⟩, hsee⟩
    · rintro ⟨⟨hlive, hnot⟩, hsee⟩
      exact ⟨⟨⟨hown hsee, hlive⟩, hsee⟩, hnot⟩
  unfold Object.checkCommit
  simp only [hunseen]
  cases hmine : object.chain.find? (Visibility.ofFrame g invalid).generation with
  | none =>
    left
    refine ⟨rfl, fun mine hmem hgen => ?_⟩
    exact absurd hgen (Chain.find?_eq_none_iff.mp hmine mine hmem)
  | some mine =>
    dsimp only
    obtain ⟨hmem, hgen⟩ := Chain.mem_of_find? hmine
    have hgen : mine.generation = g := hgen
    cases hmissed : object.chain.newest? fun r => r.isCommitted table.generations &&
        !(Visibility.ofFrame g invalid).canSee r.generation with
    | none =>
      left
      refine ⟨rfl, fun _ _ _ s hs hcommitted => ?_⟩
      have := Chain.newest?_eq_none_iff.mp hmissed s hs
      simpa [hcommitted] using this
    | some newest =>
      right
      obtain ⟨hnewest, hp, hmax⟩ := hc.ascending.newest?_eq_some_iff.mp hmissed
      obtain ⟨hcommitted, hsee⟩ := Bool.and_eq_true_iff.mp hp
      -- Were a newer committed record shown to the frame, this one would be too.
      have hall : ∀ s ∈ object.chain.records, s.isCommitted table.generations = true →
          s.generation ≤ newest.generation := by
        intro s hs hscommitted
        rcases Nat.le_total s.generation newest.generation with hle | hle
        · exact hle
        · refine hmax s hs (Bool.and_eq_true_iff.mpr ⟨hscommitted, ?_⟩)
          rw [Bool.not_eq_true']
          by_contra hshown
          rw [Bool.not_eq_false] at hshown
          have := hc.downward _ hg newest hnewest s hs hcommitted hscommitted hle hshown
          simp [this] at hsee
      have hbranched : ∃ base, object.chain.inherited? table.generations (.ofFrame g invalid) =
          some base ∧ mine.base = some base.generation := by
        cases hb : mine.base with
        | none =>
          rw [hc.founded mine hmem (hgen ▸ hopen) hb newest hnewest] at hcommitted
          exact absurd (hgen ▸ hopen) (Record.isCommitted_iff.mp hcommitted).2
        | some b =>
          subst hgen
          obtain ⟨base, hbase, rfl⟩ := hc.branched mine hmem invalid hg b hb
          exact ⟨base, hbase, rfl⟩
      obtain ⟨base, hinherited, hbase⟩ := hbranched
      have hcontended : object.chain.Contended next table (.ofFrame g invalid) mine base newest :=
        ⟨hmine, hinherited, hbase, hc.inherited?_snapshot_eq_some_iff.mpr
          ⟨hnewest, hcommitted, hall⟩, by simpa using hsee⟩
      refine ⟨mine, base, newest, hcontended, ?_⟩
      have hfind : mine.base.bind object.chain.find? = some base := by
        rw [hbase, Option.bind_some]
        exact hcontended.find?_base hc
      cases hmerge : object.merge mine.value base.value newest.value <;> simp only [hfind, hmerge]

end VersionedObjects.Store
