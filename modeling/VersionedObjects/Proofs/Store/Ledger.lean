import VersionedObjects.Proofs.Store.CommitCheck

/-!
# Ledgers and effects

A ledger is what readers depend on: the clock, the open table, and a chain for every object. Each
request to the store comes down to a few effects on its ledger, and whether an effect is
admitted is decided by the ledger alone. Main statement: admitted effects keep a ledger sound, that
is, its table timely and every chain coherent with it.
-/

namespace VersionedObjects.Store

variable {α : Type}

/-- The clock and the open table of a manager, and the chains of its objects; an object that was
not made yet has an empty chain. -/
structure Ledger (α : Type) where
  next : Generation
  table : OpenTable
  chain : ObjectId → Chain α

/-- What happens to a ledger. -/
inductive Effect (α : Type) where
  /-- A frame was opened. -/
  | opened
  /-- An open frame made an object. -/
  | founded (o : ObjectId) (g : Generation) (value : α)
  /-- An object was made outside of frames. -/
  | created (o : ObjectId) (value : α)
  /-- An open frame linked a record of its own. -/
  | branched (o : ObjectId) (r : Record α)
  /-- A frame committed and published merged values. -/
  | committed (g : Generation) (merges : List (PendingMerge α))
  | discarded (g : Generation)
  | trimmed (o : ObjectId)
  /-- A value was stored into the record of a generation. -/
  | stored (o : ObjectId) (g : Generation) (change : α → α)

/-- The record that a commit publishes for an object, when its merged values take the generations
from the next one on. -/
def published? (next : Generation) : List (PendingMerge α) → ObjectId → Option (Record α)
  | [], _ => none
  | merge :: rest, o =>
    if merge.object = o then
      some { generation := next, base := some merge.base, value := merge.value }
    else published? (next + 1) rest o

namespace Ledger

/-- The readers alive, as trimming takes them. -/
def view (l : Ledger α) : GcView where
  watermark := l.table.generations.head?.getD l.next
  readers := l.table.readers l.next
  opened := l.table.generations

/-- The newest committed record of an object. -/
def newest? (l : Ledger α) (o : ObjectId) : Option (Record α) :=
  (l.chain o).inherited? l.table.generations (.snapshot l.next l.table.generations)

/-- The ledger with the chain of an object changed. -/
def modifyChain (l : Ledger α) (o : ObjectId) (f : Chain α → Chain α) : Ledger α :=
  { l with chain := fun p => if p = o then f (l.chain p) else l.chain p }

/-- The ledger after a generation was taken from the clock. -/
def tick (l : Ledger α) : Ledger α :=
  { l with next := l.next + 1 }

/-- The ledger after an effect. -/
def apply (l : Ledger α) : Effect α → Ledger α
  | .opened =>
    { l with next := l.next + 1, table := l.table ++ [(l.next, l.table.generations)] }
  | .founded o g value =>
    l.modifyChain o fun _ => .singleton { generation := g, base := none, value }
  | .created o value =>
    l.tick.modifyChain o fun _ => .singleton { generation := l.next, base := none, value }
  | .branched o r => l.modifyChain o (·.link r)
  | .committed g merges =>
    { next := l.next + merges.length
      table := l.table.without g
      chain := fun o =>
        match published? l.next merges o with
        | none => l.chain o
        | some r => ((l.chain o).unlink g).link r }
  | .discarded g =>
    { l with table := l.table.without g, chain := fun o => (l.chain o).discard g }
  | .trimmed o => l.modifyChain o (·.trim l.view)
  | .stored o g change => l.modifyChain o (·.store g change)

/-- The ledger after effects in order. -/
def run (l : Ledger α) (effects : List (Effect α)) : Ledger α :=
  effects.foldl apply l

/-- The ledger allows an effect. -/
inductive Admits (l : Ledger α) : Effect α → Prop
  | opened : l.Admits .opened
  | founded {o : ObjectId} {g : Generation} {value : α} (hempty : (l.chain o).records = [])
      (hopen : g ∈ l.table.generations) : l.Admits (.founded o g value)
  | created {o : ObjectId} {value : α} (hempty : (l.chain o).records = []) :
      l.Admits (.created o value)
  | branched {o : ObjectId} {r base : Record α} {invalid : List Generation}
      (hentry : (r.generation, invalid) ∈ l.table)
      (hnew : (l.chain o).find? r.generation = none)
      (hselect : (l.chain o).select? (.ofFrame r.generation invalid) = some base)
      (hbase : r.base = some base.generation) (hdiscarded : r.discarded = false) :
      l.Admits (.branched o r)
  | committed {g : Generation} {invalid : List Generation} {merges : List (PendingMerge α)}
      (hentry : (g, invalid) ∈ l.table)
      (hclean : ∀ o, published? l.next merges o = none →
        ∀ mine ∈ (l.chain o).records, mine.generation = g → ∀ s ∈ (l.chain o).records,
          s.isCommitted l.table.generations = true →
          (Visibility.ofFrame g invalid).canSee s.generation = true)
      (hmerged : ∀ o r, published? l.next merges o = some r → ∃ mine base newest,
        (l.chain o).Contended l.next l.table (.ofFrame g invalid) mine base newest ∧
          r.base = some newest.generation) :
      l.Admits (.committed g merges)
  | discarded {g : Generation} (hopen : g ∈ l.table.generations) : l.Admits (.discarded g)
  | trimmed (o : ObjectId) : l.Admits (.trimmed o)
  | stored (o : ObjectId) (g : Generation) (change : α → α) : l.Admits (.stored o g change)

/-- Every effect is allowed when its turn comes. -/
def AdmitsAll (l : Ledger α) : List (Effect α) → Prop
  | [] => True
  | effect :: rest => l.Admits effect ∧ (l.apply effect).AdmitsAll rest

/-- The table is timely and every chain is coherent with it. -/
structure Sound (l : Ledger α) : Prop where
  timely : Timely l.next l.table
  coherent : ∀ o, (l.chain o).Coherent l.next l.table

end Ledger

/-! ## Published records -/

/-- A commit publishes a merged record for exactly the objects whose values it merges. -/
theorem published?_eq_none_iff {next : Generation} {merges : List (PendingMerge α)}
    {o : ObjectId} : published? next merges o = none ↔ ∀ merge ∈ merges, merge.object ≠ o := by
  induction merges generalizing next with
  | nil => simp [published?]
  | cons merge rest ih =>
    unfold published?
    split
    · next heq => simp [heq]
    · next hne => simp [ih, hne]

/-- A published record holds a value to merge, under a generation that is taken from the clock. -/
theorem of_published? {next : Generation} {merges : List (PendingMerge α)} {o : ObjectId}
    {r : Record α} (h : published? next merges o = some r) :
    (∃ merge ∈ merges, merge.object = o ∧ r.base = some merge.base ∧ r.value = merge.value) ∧
      next ≤ r.generation ∧ r.generation < next + merges.length ∧ r.discarded = false := by
  induction merges generalizing next with
  | nil => cases h
  | cons merge rest ih =>
    rw [List.length_cons]
    unfold published? at h
    split at h
    · next heq =>
      obtain rfl := Option.some.inj h
      exact ⟨⟨merge, List.mem_cons_self, heq, rfl, rfl⟩, Nat.le_refl _,
        Nat.lt_add_of_pos_right (Nat.succ_pos _), rfl⟩
    · obtain ⟨⟨other, hmem, hother⟩, hle, hlt, hdiscarded⟩ := ih h
      refine ⟨⟨other, List.mem_cons_of_mem _ hmem, hother⟩, ?_, ?_, hdiscarded⟩
      · exact Nat.le_of_succ_le hle
      · rwa [Nat.add_right_comm] at hlt

namespace Ledger

variable {l : Ledger α}

/-- Changing a chain leaves the table of open frames as it is. -/
@[simp] theorem modifyChain_table (l : Ledger α) (o : ObjectId) (f : Chain α → Chain α) :
    (l.modifyChain o f).table = l.table :=
  rfl

/-- Changing the chain of an object leaves those of the others as they are. -/
theorem modifyChain_chain (l : Ledger α) (o : ObjectId) (f : Chain α → Chain α) (p : ObjectId) :
    (l.modifyChain o f).chain p = if p = o then f (l.chain p) else l.chain p :=
  rfl

/-- A record after a change to one chain was there before or is a record of the changed chain. -/
theorem of_mem_modifyChain {o p : ObjectId} {f : Chain α → Chain α} {r : Record α}
    (hr : r ∈ ((l.modifyChain o f).chain p).records) :
    r ∈ (l.chain p).records ∨ p = o ∧ r ∈ (f (l.chain p)).records := by
  rw [modifyChain_chain] at hr
  split at hr
  · next hp => exact Or.inr ⟨hp, hr⟩
  · exact Or.inl hr

/-! ## Soundness -/

/-- A change to one chain that leaves it coherent keeps the ledger sound. -/
theorem Sound.modifyChain (hl : l.Sound) {o : ObjectId} {f : Chain α → Chain α}
    (hf : (f (l.chain o)).Coherent l.next l.table) : (l.modifyChain o f).Sound := by
  refine ⟨hl.timely, fun p => ?_⟩
  by_cases hp : p = o
  · subst hp
    simpa [Ledger.modifyChain] using hf
  · simpa [Ledger.modifyChain, hp] using hl.coherent p

/-- Taking a generation from the clock keeps the ledger sound. -/
theorem Sound.tick (hl : l.Sound) : l.tick.Sound :=
  ⟨hl.timely.mono (Nat.le_succ _), fun o => (hl.coherent o).mono (Nat.le_succ _)⟩

/-- A commit leaves every chain coherent with the table without its generation. -/
theorem Sound.committed (hl : l.Sound) {g : Generation} {invalid : List Generation}
    {merges : List (PendingMerge α)} (hentry : (g, invalid) ∈ l.table)
    (hclean : ∀ o, published? l.next merges o = none →
      ∀ mine ∈ (l.chain o).records, mine.generation = g → ∀ s ∈ (l.chain o).records,
        s.isCommitted l.table.generations = true →
        (Visibility.ofFrame g invalid).canSee s.generation = true)
    (hmerged : ∀ o r, published? l.next merges o = some r → ∃ mine base newest,
      (l.chain o).Contended l.next l.table (.ofFrame g invalid) mine base newest ∧
        r.base = some newest.generation) : (l.apply (.committed g merges)).Sound := by
  have hopen : g ∈ l.table.generations := OpenTable.mem_generations.mpr ⟨invalid, hentry⟩
  refine ⟨(hl.timely.without g).mono (Nat.le_add_right _ _), fun o => ?_⟩
  have hc := hl.coherent o
  dsimp only [Ledger.apply]
  cases hpublished : published? l.next merges o with
  | none =>
    exact (hc.commit hl.timely hentry (hclean o hpublished)).mono (Nat.le_add_right _ _)
  | some r =>
    obtain ⟨mine, base, newest, hcontended, _⟩ := hmerged o r hpublished
    obtain ⟨_, hle, hlt, hdiscarded⟩ := of_published? hpublished
    obtain ⟨hmine, hgen⟩ := Chain.mem_of_find? hcontended.mine_eq
    exact hc.publish hl.timely hopen hmine hgen (hcontended.mem_newest hc)
      (hcontended.newest_committed hc) hle hlt hdiscarded

/-- An admitted effect keeps the ledger sound. -/
theorem Sound.apply (hl : l.Sound) {effect : Effect α} (h : l.Admits effect) :
    (l.apply effect).Sound := by
  cases h with
  | opened => exact ⟨hl.timely.openNext, fun o => (hl.coherent o).openNext⟩
  | founded hempty hopen =>
    rw [Ledger.apply]
    refine hl.modifyChain ?_
    exact Chain.Coherent.singleton (hl.timely.lt_of_mem hopen) rfl rfl
  | created hempty =>
    rw [Ledger.apply]
    refine hl.tick.modifyChain ?_
    exact Chain.Coherent.singleton (Nat.lt_succ_self _) rfl rfl
  | branched hentry hnew hselect hbase hdiscarded =>
    rw [Ledger.apply]
    refine hl.modifyChain ?_
    exact (hl.coherent _).branch hl.timely hentry hnew hselect hbase hdiscarded
  | committed hentry hclean hmerged => exact hl.committed hentry hclean hmerged
  | discarded hopen =>
    obtain ⟨invalid, hentry⟩ := OpenTable.mem_generations.mp hopen
    exact ⟨hl.timely.without _, fun o => (hl.coherent o).discard hentry⟩
  | trimmed o =>
    rw [Ledger.apply]
    refine hl.modifyChain ?_
    exact (hl.coherent o).trim hl.timely rfl rfl
  | stored o g change =>
    rw [Ledger.apply]
    refine hl.modifyChain ?_
    exact (hl.coherent o).store g change

/-- Running no effects changes nothing. -/
@[simp] theorem run_nil (l : Ledger α) : l.run [] = l :=
  rfl

/-- Effects run from the first one on. -/
@[simp] theorem run_cons (l : Ledger α) (effect : Effect α) (rest : List (Effect α)) :
    l.run (effect :: rest) = (l.apply effect).run rest :=
  rfl

/-- Two lists of effects in a row run one after the other. -/
theorem run_append (l : Ledger α) (effects more : List (Effect α)) :
    l.run (effects ++ more) = (l.run effects).run more :=
  List.foldl_append ..

/-- Effects in a row are admitted when the first ones are, and the others after them. -/
theorem admitsAll_append {l : Ledger α} {effects more : List (Effect α)} :
    l.AdmitsAll (effects ++ more) ↔ l.AdmitsAll effects ∧ (l.run effects).AdmitsAll more := by
  induction effects generalizing l with
  | nil => simp [AdmitsAll]
  | cons effect rest ih => simp only [List.cons_append, AdmitsAll, ih, run_cons, and_assoc]

/-- Chains may be trimmed at any time. -/
theorem admitsAll_trimmed (l : Ledger α) (objects : List ObjectId) :
    l.AdmitsAll (objects.map .trimmed) := by
  induction objects generalizing l with
  | nil => trivial
  | cons o rest ih => exact ⟨.trimmed o, ih _⟩

/-- A run of admitted effects keeps the ledger sound. -/
theorem Sound.run (hl : l.Sound) {effects : List (Effect α)} (h : l.AdmitsAll effects) :
    (l.run effects).Sound := by
  induction effects generalizing l with
  | nil => exact hl
  | cons effect rest ih => exact ih (hl.apply h.1) h.2

end Ledger

end VersionedObjects.Store
