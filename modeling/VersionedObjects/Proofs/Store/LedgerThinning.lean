import VersionedObjects.Proofs.Store.ClosedRecords
import VersionedObjects.Proofs.Store.SnapshotReads
import VersionedObjects.Proofs.Store.Thinning

/-!
# Thinned ledgers

A ledger thins another one when it has the same clock and the same table, and each of its chains
thins that of the other. Main statement: two such ledgers stay so when the same things happen to
both, and the thinner one is trimmed in between.
-/

namespace VersionedObjects.Store

variable {α : Type}

/-- The effect trims a chain. -/
def Effect.trims : Effect α → Bool
  | .trimmed _ => true
  | _ => false

/-- An effect trims if it is the trimming of some object. -/
theorem Effect.trims_iff {effect : Effect α} :
    effect.trims = true ↔ ∃ o, effect = .trimmed o := by
  cases effect <;> simp [trims]

/-- The effects but for those that trim. -/
def untrimmed (effects : List (Effect α)) : List (Effect α) :=
  effects.filter fun effect => !effect.trims

/-- A trimming is left out. -/
theorem untrimmed_cons_of_trims {effect : Effect α} {rest : List (Effect α)}
    (h : effect.trims = true) : untrimmed (effect :: rest) = untrimmed rest :=
  List.filter_cons_of_neg (by simp [h])

/-- Any other effect is not left out. -/
theorem untrimmed_cons_of_not_trims {effect : Effect α} {rest : List (Effect α)}
    (h : effect.trims = false) : untrimmed (effect :: rest) = effect :: untrimmed rest :=
  List.filter_cons_of_pos (by simp [h])

/-- Of the trimmings of a commit nothing is left. -/
theorem untrimmed_map_trimmed (objects : List ObjectId) :
    untrimmed (objects.map Effect.trimmed : List (Effect α)) = [] := by
  simp [untrimmed, Effect.trims]

namespace Ledger

variable {a b l : Ledger α}

/-- The ledger has the clock and the table of another one, and thins each of its chains. -/
structure Thins (b a : Ledger α) : Prop where
  next_eq : b.next = a.next
  table_eq : b.table = a.table
  chain : ∀ o, (b.chain o).Thins (a.chain o) a.next a.table

namespace Thins

/-- A ledger is itself, but for nothing. -/
theorem refl (l : Ledger α) : l.Thins l :=
  ⟨rfl, rfl, fun _ => .refl _ _ _⟩

/-- The newest committed records are the same in both ledgers. -/
theorem newest?_eq (h : b.Thins a) (o : ObjectId) : b.newest? o = a.newest? o := by
  rw [newest?, newest?, h.next_eq, h.table_eq]
  exact (h.chain o).inherited _ (OpenTable.mem_readers.mpr (Or.inr rfl))

/-- An open frame inherits the same record in both ledgers. -/
theorem inherited?_eq (h : b.Thins a) {entry : Generation × List Generation}
    (hentry : entry ∈ a.table) (o : ObjectId) :
    (b.chain o).inherited? b.table.generations (.ofFrame entry.1 entry.2) =
      (a.chain o).inherited? a.table.generations (.ofFrame entry.1 entry.2) := by
  rw [h.table_eq]
  exact (h.chain o).inherited _ (OpenTable.mem_readers.mpr (Or.inl ⟨entry, hentry, rfl⟩))

/-- An open generation has the same record of its own in both ledgers. -/
theorem find?_eq (h : b.Thins a) (hb : b.Sound) {g : Generation} (hg : g ∈ a.table.generations)
    (o : ObjectId) : (b.chain o).find? g = (a.chain o).find? g :=
  (h.chain o).find?_eq (hb.coherent o).ascending hg

/-- A ledger whose chains are part of those of another one thins it, if every frame inherits the
same from both and they have the same newest committed records. -/
theorem of_parts (hnext : b.next = a.next) (htable : b.table = a.table)
    (hparts : ∀ o, (b.chain o).PartOf (a.chain o) a.table)
    (hentries : ∀ entry ∈ a.table, ∀ o,
      (b.chain o).inherited? b.table.generations (.ofFrame entry.1 entry.2) =
        (a.chain o).inherited? a.table.generations (.ofFrame entry.1 entry.2))
    (hnewest : ∀ o, b.newest? o = a.newest? o) : b.Thins a := by
  refine ⟨hnext, htable, fun o => ⟨hparts o, fun reader hreader => ?_⟩⟩
  rcases OpenTable.mem_readers.mp hreader with ⟨entry, hentry, rfl⟩ | rfl
  · exact htable ▸ hentries entry hentry o
  · have h := hnewest o
    rwa [newest?, newest?, hnext, htable] at h

/-- A ledger that is trimmed thins the one it thinned before. -/
theorem trimmed (h : b.Thins a) (hb : b.Sound) (p : ObjectId) : (b.apply (.trimmed p)).Thins a := by
  refine ⟨h.next_eq, h.table_eq, fun o => ?_⟩
  rw [Ledger.apply, modifyChain_chain]
  split
  · have hreaders : b.view.readers = b.table.readers b.next := rfl
    have htrim := (hb.coherent o).trim_thins hb.timely hreaders rfl
    rw [h.next_eq, h.table_eq] at htrim
    exact htrim.trans (h.chain o)
  · exact h.chain o

/-! ## The same effect on both -/

/-- A commit reveals the same in both ledgers. -/
theorem revealed?_eq (h : b.Thins a) (hb : b.Sound) {g : Generation}
    (hg : g ∈ a.table.generations) (merges : List (PendingMerge α)) (o : ObjectId) :
    b.revealed? g merges o = a.revealed? g merges o := by
  rw [revealed?, revealed?, h.next_eq, h.find?_eq hb hg]

/-- The newest committed records stay the same. -/
theorem newest?_apply (h : b.Thins a) (ha : a.Sound) (hb : b.Sound) {effect : Effect α}
    (haeffect : a.Admits effect) (hbeffect : b.Admits effect)
    (huntrimmed : ∀ p, effect ≠ .trimmed p) (o : ObjectId) :
    (b.apply effect).newest? o = (a.apply effect).newest? o := by
  have hlast := h.newest?_eq o
  rw [ha.newest?_eq, hb.newest?_eq] at hlast
  rw [(ha.apply haeffect).newest?_eq, (hb.apply hbeffect).newest?_eq, ha.closed_apply haeffect,
    hb.closed_apply hbeffect]
  unfold closedAfter
  cases effect with
  | opened | founded | branched => exact hlast
  | created p value =>
    dsimp only
    rw [h.next_eq]
    split
    · rfl
    · exact hlast
  | committed g merges =>
    dsimp only
    rw [h.revealed?_eq hb haeffect.mem_of_committed]
    simp only [List.reverse_append, List.find?_append, hlast]
  | discarded g =>
    cases haeffect with
    | discarded hg =>
    dsimp only
    rw [h.find?_eq hb hg]
    split
    · split
      · rfl
      · exact hlast
    · exact hlast
  | trimmed p => exact absurd rfl (huntrimmed p)
  | stored p g change =>
    dsimp only
    split
    · have hlive : (fun r : Record α => !r.discarded) ∘ Record.stored g change =
          fun r => !r.discarded := by
        funext r
        simp only [Function.comp_apply, Record.stored_discarded]
      simp only [← List.map_reverse, List.find?_map, hlive, hlast]
    · exact hlast

/-- Every frame that is open goes on to inherit the same. -/
theorem inherited?_apply (h : b.Thins a) (ha : a.Sound) (hb : b.Sound) {effect : Effect α}
    (haeffect : a.Admits effect) (hbeffect : b.Admits effect)
    {entry : Generation × List Generation} (hentry : entry ∈ a.table)
    (hopen : entry ∈ (a.apply effect).table)
    (htable : (b.apply effect).table = (a.apply effect).table) (o : ObjectId) :
    ((b.apply effect).chain o).inherited? (b.apply effect).table.generations
        (.ofFrame entry.1 entry.2) =
      ((a.apply effect).chain o).inherited? (a.apply effect).table.generations
        (.ofFrame entry.1 entry.2) := by
  have hbefore := h.inherited?_eq hentry o
  by_cases hstored : ∃ p g change, effect = .stored p g change
  · obtain ⟨p, g, change, rfl⟩ := hstored
    simp only [Ledger.apply, modifyChain_chain, modifyChain_table]
    split
    · rw [Chain.inherited?_store, Chain.inherited?_store, hbefore]
    · exact hbefore
  · have hnone {l : Ledger α} : ∀ p g change, effect = .stored p g change →
        g ∈ l.table.generations :=
      fun p g change heq => absurd ⟨p, g, change, heq⟩ hstored
    rw [ha.inherited?_apply haeffect hentry hopen hnone,
      hb.inherited?_apply hbeffect (h.table_eq ▸ hentry) (htable ▸ hopen) hnone, hbefore]

/-- The clocks of both ledgers go on alike. -/
theorem next_apply (h : b.Thins a) (effect : Effect α) :
    (b.apply effect).next = (a.apply effect).next := by
  cases effect with
  | opened | created => exact congrArg (· + 1) h.next_eq
  | committed g merges => exact congrArg (· + merges.length) h.next_eq
  | _ => exact h.next_eq

/-- The open tables of both ledgers go on alike. -/
theorem table_apply (h : b.Thins a) (effect : Effect α) :
    (b.apply effect).table = (a.apply effect).table := by
  cases effect with
  | opened => rw [Ledger.apply, Ledger.apply, h.next_eq, h.table_eq]
  | committed g merges => exact congrArg (·.without g) h.table_eq
  | discarded g => exact congrArg (·.without g) h.table_eq
  | _ => exact h.table_eq

/-- Each chain stays part of the other one. -/
theorem partOf_apply (h : b.Thins a) (ha : a.Sound) (hb : b.Sound) {effect : Effect α}
    (haeffect : a.Admits effect) (hbeffect : b.Admits effect)
    (huntrimmed : ∀ p, effect ≠ .trimmed p) (o : ObjectId) :
    ((b.apply effect).chain o).PartOf ((a.apply effect).chain o) (a.apply effect).table := by
  have hpart := (h.chain o).toPartOf
  have hc := ha.coherent o
  have hd : (b.chain o).Coherent a.next a.table := by
    rw [← h.next_eq, ← h.table_eq]
    exact hb.coherent o
  cases haeffect with
  | opened => exact hpart.openNext hc _
  | founded =>
    rw [Ledger.apply, Ledger.apply, modifyChain_chain, modifyChain_chain]
    split
    · exact .refl _ _
    · exact hpart
  | created =>
    rw [Ledger.apply, Ledger.apply, modifyChain_chain, modifyChain_chain, h.next_eq]
    split
    · exact .refl _ _
    · exact hpart
  | branched hentry hnew hselect hbase hdiscarded =>
    rw [Ledger.apply, Ledger.apply, modifyChain_chain, modifyChain_chain]
    split
    · next heq =>
      subst heq
      refine hpart.link hnew ?_
      rw [h.find?_eq hb (OpenTable.mem_generations.mpr ⟨_, hentry⟩), hnew]
    · exact hpart
  | @committed g invalid merges hentry hclean hmerged =>
    have hopen : g ∈ a.table.generations := OpenTable.mem_generations.mpr ⟨invalid, hentry⟩
    cases hbeffect with
    | committed hentry' hclean' hmerged' =>
    dsimp only [Ledger.apply]
    rw [h.next_eq] at hmerged' ⊢
    cases hpublished : published? a.next merges o with
    | none => exact hpart.without g
    | some r =>
      obtain ⟨mine, base, newest, hcontended, -⟩ := hmerged o r hpublished
      obtain ⟨mine', base', newest', hcontended', -⟩ := hmerged' o r hpublished
      rw [h.table_eq] at hcontended'
      refine (hpart.publish (hcontended.canUnlink hc hopen) (hcontended'.canUnlink hd hopen)
        fun s hs => ?_).without g
      exact Nat.ne_of_lt (Nat.lt_of_lt_of_le (hc.minted s hs) (of_published? hpublished).2.1)
  | @discarded g hopen =>
    obtain ⟨invalid, hentry⟩ := OpenTable.mem_generations.mp hopen
    exact (hpart.discard hc hd hentry).without g
  | trimmed p => exact absurd rfl (huntrimmed p)
  | stored p g change =>
    rw [Ledger.apply, Ledger.apply, modifyChain_chain, modifyChain_chain]
    split
    · exact hpart.store g change
    · exact hpart

/-- The same happens to both. -/
theorem apply (h : b.Thins a) (ha : a.Sound) (hb : b.Sound) {effect : Effect α}
    (haeffect : a.Admits effect) (hbeffect : b.Admits effect)
    (huntrimmed : ∀ p, effect ≠ .trimmed p) : (b.apply effect).Thins (a.apply effect) := by
  have htable := h.table_apply effect
  refine of_parts (h.next_apply effect) htable
    (h.partOf_apply ha hb haeffect hbeffect huntrimmed) (fun entry hentry o => ?_)
    (h.newest?_apply ha hb haeffect hbeffect huntrimmed)
  rcases of_mem_table_apply hentry with hold | ⟨rfl, rfl⟩
  · exact h.inherited?_apply ha hb haeffect hbeffect hold hentry htable o
  · -- The frame that was just opened inherits the newest committed records.
    dsimp only [Ledger.apply]
    rw [(ha.coherent o).inherited?_openNext, (hb.coherent o).inherited?_openNext,
      ha.inherited?_next, ← h.newest?_eq, ← h.next_eq, ← h.table_eq, hb.inherited?_next]

/-- The same happens to both in order, but the thinner one is trimmed in between. -/
theorem run (h : b.Thins a) (ha : a.Sound) (hb : b.Sound) {effects : List (Effect α)}
    (hadmits : b.AdmitsAll effects) (huntrimmed : a.AdmitsAll (untrimmed effects)) :
    (b.run effects).Thins (a.run (untrimmed effects)) := by
  induction effects generalizing a b with
  | nil => exact h
  | cons effect rest ih =>
    have hb' := hb.apply hadmits.1
    cases htrims : effect.trims with
    | true =>
      obtain ⟨p, rfl⟩ := Effect.trims_iff.mp htrims
      rw [untrimmed_cons_of_trims htrims] at huntrimmed ⊢
      exact ih (h.trimmed hb p) ha hb' hadmits.2 huntrimmed
    | false =>
      rw [untrimmed_cons_of_not_trims htrims] at huntrimmed ⊢
      have hne (p : ObjectId) : effect ≠ .trimmed p := by
        rintro rfl
        cases htrims
      exact ih (h.apply ha hb huntrimmed.1 hadmits.1 hne) (ha.apply huntrimmed.1) hb' hadmits.2
        huntrimmed.2

end Thins

end Ledger

end VersionedObjects.Store
