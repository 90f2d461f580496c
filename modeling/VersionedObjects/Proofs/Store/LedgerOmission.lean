import VersionedObjects.Proofs.Store.Omission
import VersionedObjects.Proofs.Store.Renaming

/-!
# Ledgers without the work of a frame

A ledger omits the work of a frame of another one when it has the same clock and the same table, its
objects are those of the other ledger that the frame did not make, and their chains are the same
without the records of the frame. Of what the frame made, the other ledger holds nothing but records
of that frame, which are discarded once it is closed. Main statement: what other frames do to both
ledgers, and what the frame does to one of them, leaves it so.
-/

namespace VersionedObjects.Store

variable {α : Type}

namespace Ledger

/-- The ledger has the clock, the table and the chains of another one without the records of a
generation; the other objects of that one were made by the frame of the generation. -/
structure Omits (b a : Ledger α) (g : Generation) (others : List ObjectId) : Prop where
  next_eq : b.next = a.next
  table_eq : b.table = a.table
  minted : g < a.next
  chain : ∀ o ∈ others, b.chain (others.idxOf o) = (a.chain o).omitting g
  /-- What the frame wrote is not yet closed and was branched. -/
  branched : ∀ o ∈ others, ∀ r ∈ (a.chain o).records, r.generation = g →
    g ∈ a.table.generations ∧ r.base ≠ none
  /-- What the frame made has no other records, and none that is not discarded once it is
  closed. -/
  made : ∀ o ∉ others, ∀ r ∈ (a.chain o).records, r.generation = g ∧
    (g ∉ a.table.generations → r.discarded = true)

namespace Omits

variable {a b : Ledger α} {g k : Generation} {o : ObjectId} {others : List ObjectId}

/-! ## Reading -/

/-- Once the frame is closed the chains are the same. -/
theorem chain_eq (h : b.Omits a g others) (ho : o ∈ others) (hg : g ∉ a.table.generations) :
    b.chain (others.idxOf o) = a.chain o := by
  rw [h.chain o ho]
  exact Chain.omitting_eq_self fun r hr hgen => hg (h.branched o ho r hr hgen).1

/-- Other frames have the same records of their own. -/
theorem find?_eq (h : b.Omits a g others) (ho : o ∈ others) (hne : k ≠ g) :
    (b.chain (others.idxOf o)).find? k = (a.chain o).find? k := by
  rw [h.chain o ho, Chain.find?_omitting _ hne]

/-- Who is not shown the frame while it is open selects the same. -/
theorem select?_eq (h : b.Omits a g others) (ho : o ∈ others) {view : Visibility}
    (hview : g ∈ a.table.generations → view.canSee g = false) :
    (b.chain (others.idxOf o)).select? view = (a.chain o).select? view := by
  by_cases hg : g ∈ a.table.generations
  · rw [h.chain o ho, Chain.select?_omitting _ (hview hg)]
  · rw [h.chain_eq ho hg]

/-- Everyone inherits the same. -/
theorem inherited?_eq (h : b.Omits a g others) (ho : o ∈ others) (view : Visibility) :
    (b.chain (others.idxOf o)).inherited? b.table.generations view =
      (a.chain o).inherited? a.table.generations view := by
  rw [h.table_eq]
  by_cases hg : g ∈ a.table.generations
  · rw [h.chain o ho, Chain.inherited?_omitting _ hg]
  · rw [h.chain_eq ho hg]

/-- The newest committed records are the same. -/
theorem newest?_eq (h : b.Omits a g others) (ho : o ∈ others) :
    b.newest? (others.idxOf o) = a.newest? o := by
  have hinherited := h.inherited?_eq ho (.snapshot a.next a.table.generations)
  rw [newest?, newest?, ← hinherited, h.next_eq, h.table_eq]

/-- Other frames have no records of what the frame made. -/
theorem find?_made (h : b.Omits a g others) (ho : o ∉ others) (hne : k ≠ g) :
    (a.chain o).find? k = none :=
  Chain.find?_eq_none_iff.mpr fun r hr hgen => hne (hgen.symm.trans (h.made o ho r hr).1)

/-- Nobody is shown what the frame made, but the frame while it is open. -/
theorem select?_made (h : b.Omits a g others) (ho : o ∉ others) {view : Visibility}
    (hview : g ∈ a.table.generations → view.canSee g = false) :
    (a.chain o).select? view = none := by
  refine Chain.newest?_eq_none_iff.mpr fun r hr hvisible => ?_
  obtain ⟨hgen, hdiscarded⟩ := h.made o ho r hr
  rw [Record.visibleTo, Bool.and_eq_true, hgen] at hvisible
  by_cases hg : g ∈ a.table.generations
  · rw [hview hg] at hvisible
    cases hvisible.2
  · rw [hdiscarded hg] at hvisible
    cases hvisible.1

/-! ## Changes to the chain of one object -/

/-- Both chains of an object are changed alike. -/
theorem modifyChain (h : b.Omits a g others) (ho : o ∈ others) {fb fa : Chain α → Chain α}
    (hchain : fb (b.chain (others.idxOf o)) = (fa (a.chain o)).omitting g)
    (hbranched : ∀ r ∈ (fa (a.chain o)).records, r.generation = g →
      g ∈ a.table.generations ∧ r.base ≠ none) :
    (b.modifyChain (others.idxOf o) fb).Omits (a.modifyChain o fa) g others where
  next_eq := h.next_eq
  table_eq := h.table_eq
  minted := h.minted
  chain p hp := by
    rw [modifyChain_chain, modifyChain_chain]
    by_cases heq : p = o
    · subst heq
      rw [if_pos rfl, if_pos rfl, hchain]
    · rw [if_neg heq, if_neg fun hpos => heq ((List.idxOf_inj hp).mp hpos), h.chain p hp]
  branched p hp := by
    rw [modifyChain_chain]
    split
    · next heq =>
      subst heq
      exact hbranched
    · exact h.branched p hp
  made p hp := by
    have hne : p ≠ o := fun heq => hp (heq ▸ ho)
    rw [modifyChain_chain, if_neg hne]
    exact h.made p hp

/-- A change that only concerns the frame's own record is left out. -/
theorem modifyChain_own (h : b.Omits a g others) (ho : o ∈ others) {fa : Chain α → Chain α}
    (hchain : (fa (a.chain o)).omitting g = (a.chain o).omitting g)
    (hbranched : ∀ r ∈ (fa (a.chain o)).records, r.generation = g →
      g ∈ a.table.generations ∧ r.base ≠ none) : b.Omits (a.modifyChain o fa) g others := by
  have hsame : b.modifyChain (others.idxOf o) id = b := by
    rw [Ledger.modifyChain]
    congr 1
    funext p
    split <;> rfl
  rw [← hsame]
  exact h.modifyChain ho ((h.chain o ho).trans hchain.symm) hbranched

/-- A change to what the frame made is left out. -/
theorem modifyChain_made (h : b.Omits a g others) (ho : o ∉ others) {fa : Chain α → Chain α}
    (hmade : ∀ r ∈ (fa (a.chain o)).records, r.generation = g ∧
      (g ∉ a.table.generations → r.discarded = true)) :
    b.Omits (a.modifyChain o fa) g others where
  next_eq := h.next_eq
  table_eq := h.table_eq
  minted := h.minted
  chain p hp := by
    have hne : p ≠ o := fun heq => ho (heq ▸ hp)
    rw [modifyChain_chain, if_neg hne, h.chain p hp]
  branched p hp := by
    have hne : p ≠ o := fun heq => ho (heq ▸ hp)
    rw [modifyChain_chain, if_neg hne]
    exact h.branched p hp
  made p hp := by
    rw [modifyChain_chain]
    split
    · next heq =>
      subst heq
      exact hmade
    · exact h.made p hp

/-- Both ledgers get another object. -/
theorem addChain (h : b.Omits a g others) (ho : o ∉ others) {c : Chain α}
    (hc : ∀ r ∈ c.records, r.generation ≠ g) :
    (b.modifyChain others.length fun _ => c).Omits (a.modifyChain o fun _ => c) g
      (others ++ [o]) where
  next_eq := h.next_eq
  table_eq := h.table_eq
  minted := h.minted
  chain p hp := by
    rw [modifyChain_chain, modifyChain_chain]
    rcases List.mem_append.mp hp with hp | hp
    · have hpos : others.idxOf p ≠ others.length := fun heq =>
        List.idxOf_eq_length_iff.mp heq hp
      have hne : p ≠ o := fun heq => ho (heq ▸ hp)
      rw [List.idxOf_append_of_mem hp, if_neg hpos, if_neg hne, h.chain p hp]
    · obtain rfl := List.mem_singleton.mp hp
      have hpos : (others ++ [p]).idxOf p = others.length := by
        rw [List.idxOf_append_of_notMem ho, List.idxOf_cons_self, Nat.add_zero]
      rw [hpos, if_pos rfl, if_pos rfl, Chain.omitting_eq_self hc]
  branched p hp r hr hgen := by
    rw [modifyChain_chain] at hr
    split at hr
    · exact absurd hgen (hc r hr)
    · next hne =>
      have hold : p ∈ others :=
        (List.mem_append.mp hp).resolve_right fun heq => hne (List.mem_singleton.mp heq)
      exact h.branched p hold r hr hgen
  made p hp := by
    rw [List.mem_append, not_or, List.mem_singleton] at hp
    rw [modifyChain_chain, if_neg hp.2]
    exact h.made p hp.1

/-- A generation is taken from both clocks. -/
theorem tick (h : b.Omits a g others) : b.tick.Omits a.tick g others :=
  { h with
    next_eq := congrArg (· + 1) h.next_eq
    minted := Nat.lt_succ_of_lt h.minted }

/-! ## Effects of the frame -/

/-- The frame makes an object. -/
theorem apply_founded_own (h : b.Omits a g others) (ho : o ∉ others) (hg : g ∈ a.table.generations)
    (value : α) : b.Omits (a.apply (.founded o g value)) g others := by
  rw [Ledger.apply]
  refine h.modifyChain_made ho fun r hr => ?_
  rw [List.mem_singleton.mp hr]
  exact ⟨rfl, fun hclosed => absurd hg hclosed⟩

/-- The frame branches a record. -/
theorem apply_branched_own (h : b.Omits a g others) (ha : a.Sound) (ho : o ∈ others) {r : Record α}
    (hadmits : a.Admits (.branched o r)) (hgen : r.generation = g) :
    b.Omits (a.apply (.branched o r)) g others := by
  cases hadmits with
  | branched hentry hnew hselect hbase hdiscarded =>
  subst hgen
  rw [Ledger.apply]
  refine h.modifyChain_own ho ((ha.coherent o).ascending.omitting_link r) fun s hs hsgen => ?_
  rcases (Chain.mem_link hnew).mp hs with rfl | hs
  · exact ⟨OpenTable.mem_generations.mpr ⟨_, hentry⟩, hbase ▸ Option.some_ne_none _⟩
  · exact h.branched o ho s hs hsgen

/-- The frame stores a value. -/
theorem apply_stored_own (h : b.Omits a g others) (o : ObjectId) (change : α → α) :
    b.Omits (a.apply (.stored o g change)) g others := by
  rw [Ledger.apply]
  by_cases ho : o ∈ others
  · refine h.modifyChain_own ho (Chain.omitting_store_self _ g change) fun r hr hgen => ?_
    obtain ⟨s, hs, rfl⟩ := Chain.mem_store.mp hr
    rw [Record.stored_generation] at hgen
    rw [Record.stored_base]
    exact h.branched o ho s hs hgen
  · refine h.modifyChain_made ho fun r hr => ?_
    obtain ⟨s, hs, rfl⟩ := Chain.mem_store.mp hr
    rw [Record.stored_generation, Record.stored_discarded]
    exact h.made o ho s hs

/-- The frame is discarded, while in the other ledger its generation is closed. -/
theorem apply_discarded_own (h : b.Omits a g others) (ha : a.Sound)
    (hg : g ∈ a.table.generations) {l : Ledger α} (hnext : l.next = b.next)
    (htable : l.table = b.table.without g)
    (hchain : ∀ o ∈ others, l.chain (others.idxOf o) = b.chain (others.idxOf o)) :
    l.Omits (a.apply (.discarded g)) g others := by
  have hdiscard : ∀ o ∈ others, (a.chain o).discard g = (a.chain o).omitting g := fun o ho =>
    (ha.coherent o).discard_eq_omitting hg fun r hr hgen => (h.branched o ho r hr hgen).2
  refine ⟨hnext.trans h.next_eq, htable.trans (congrArg (·.without g) h.table_eq), h.minted,
    fun o ho => ?_, fun o ho r hr hgen => ?_, fun o ho r hr => ?_⟩
  · have hgone : ((a.chain o).omitting g).omitting g = (a.chain o).omitting g :=
      Chain.omitting_eq_self fun r hr => (Chain.mem_omitting.mp hr).2
    dsimp only [Ledger.apply]
    rw [hchain o ho, h.chain o ho, hdiscard o ho, hgone]
  · dsimp only [Ledger.apply] at hr
    rw [hdiscard o ho] at hr
    exact absurd hgen (Chain.mem_omitting.mp hr).2
  · dsimp only [Ledger.apply] at hr
    have hold : ∀ s ∈ (a.chain o).records, s.generation = g := fun s hs => (h.made o ho s hs).1
    obtain ⟨s, hs, hgen⟩ := Chain.exists_of_mem_discard hr
    refine ⟨hgen.symm.trans (hold s hs), fun _ => ?_⟩
    unfold Chain.discard at hr
    split at hr
    · next hunlink =>
      obtain ⟨hmem, hne⟩ := (Chain.mem_unlink hunlink).mp hr
      exact absurd (hold r hmem) hne
    · obtain ⟨t, ht, rfl⟩ := Chain.mem_modify.mp hr
      rw [if_pos (hold t ht)]

/-! ## Effects of others -/

/-- The chain of the other ledger is coherent. -/
theorem coherent_omitting (h : b.Omits a g others) (hb : b.Sound) (ho : o ∈ others) :
    ((a.chain o).omitting g).Coherent a.next a.table := by
  rw [← h.chain o ho, ← h.next_eq, ← h.table_eq]
  exact hb.coherent _

/-- Both ledgers hand out the same generation to a frame that opens. -/
theorem apply_opened (h : b.Omits a g others) :
    (b.apply .opened).Omits (a.apply .opened) g others where
  next_eq := congrArg (· + 1) h.next_eq
  table_eq := by rw [Ledger.apply, Ledger.apply, h.next_eq, h.table_eq]
  minted := Nat.lt_succ_of_lt h.minted
  chain := h.chain
  branched o ho r hr hgen := by
    obtain ⟨hopen, hbase⟩ := h.branched o ho r hr hgen
    exact ⟨OpenTable.mem_generations_append.mpr (Or.inl hopen), hbase⟩
  made o ho r hr := by
    obtain ⟨hgen, hdiscarded⟩ := h.made o ho r hr
    refine ⟨hgen, fun hclosed => hdiscarded fun hopen => hclosed ?_⟩
    exact OpenTable.mem_generations_append.mpr (Or.inl hopen)

/-- An object made outside of frames on both sides joins the objects the ledgers share. -/
theorem apply_created (h : b.Omits a g others) (ho : o ∉ others) (value : α) :
    (b.apply (.created others.length value)).Omits (a.apply (.created o value)) g
      (others ++ [o]) := by
  rw [Ledger.apply, Ledger.apply, h.next_eq]
  refine h.tick.addChain ho fun r hr => ?_
  rw [List.mem_singleton.mp hr]
  exact (Nat.ne_of_lt h.minted).symm

/-- An object made inside another frame joins the shared objects as well. -/
theorem apply_founded (h : b.Omits a g others) (ho : o ∉ others) (hne : k ≠ g) (value : α) :
    (b.apply (.founded others.length k value)).Omits (a.apply (.founded o k value)) g
      (others ++ [o]) := by
  rw [Ledger.apply, Ledger.apply]
  refine h.addChain ho fun r hr => ?_
  rwa [List.mem_singleton.mp hr]

/-- A record branched for another generation is added on both sides. -/
theorem apply_branched (h : b.Omits a g others) (ha : a.Sound) (ho : o ∈ others) {r : Record α}
    (hadmits : a.Admits (.branched o r)) (hne : r.generation ≠ g) :
    (b.apply (.branched (others.idxOf o) r)).Omits (a.apply (.branched o r)) g others := by
  cases hadmits with
  | branched hentry hnew hselect hbase hdiscarded =>
  rw [Ledger.apply, Ledger.apply]
  refine h.modifyChain ho ?_ fun s hs hgen => ?_
  · rw [h.chain o ho, (ha.coherent o).ascending.omitting_link_of_ne hne hnew]
  · rcases (Chain.mem_link hnew).mp hs with rfl | hs
    · exact absurd hgen hne
    · exact h.branched o ho s hs hgen

/-- A store into a shared object, whatever the generation, leaves the ledgers in step. -/
theorem apply_stored (h : b.Omits a g others) (ho : o ∈ others) (k : Generation)
    (change : α → α) :
    (b.apply (.stored (others.idxOf o) k change)).Omits (a.apply (.stored o k change)) g
      others := by
  rw [Ledger.apply, Ledger.apply]
  refine h.modifyChain ho ?_ fun r hr hgen => ?_
  · rw [h.chain o ho, Chain.omitting_store]
  · obtain ⟨s, hs, rfl⟩ := Chain.mem_store.mp hr
    rw [Record.stored_generation] at hgen
    rw [Record.stored_base]
    exact h.branched o ho s hs hgen

/-- The same records are dropped of both chains. -/
theorem apply_trimmed (h : b.Omits a g others) (ha : a.Sound) (hb : b.Sound) (ho : o ∈ others) :
    (b.chain (others.idxOf o)).trimCount b.view = (a.chain o).trimCount a.view ∧
      (b.apply (.trimmed (others.idxOf o))).Omits (a.apply (.trimmed o)) g others := by
  have hview : b.view = a.view := by rw [view, view, h.next_eq, h.table_eq]
  have hc := ha.coherent o
  have hd := h.coherent_omitting hb ho
  have hbranched := h.branched o ho
  rw [hview, h.chain o ho, hc.trimCount_omitting hd ha.timely rfl rfl hbranched]
  refine ⟨rfl, ?_⟩
  rw [Ledger.apply, Ledger.apply, hview]
  refine h.modifyChain ho ?_ fun r hr => ?_
  · rw [h.chain o ho, hc.omitting_trim hd ha.timely rfl rfl hbranched]
  · exact hbranched r ((hc.ascending.trim_sublist _).subset hr)

/-- What the frame made may be trimmed. -/
theorem apply_trimmed_made (h : b.Omits a g others) (ha : a.Sound) (ho : o ∉ others) :
    b.Omits (a.apply (.trimmed o)) g others := by
  rw [Ledger.apply]
  refine h.modifyChain_made ho fun r hr => ?_
  exact h.made o ho r (((ha.coherent o).ascending.trim_sublist _).subset hr)

/-- Trimming the shared objects on both sides leaves the ledgers in step. -/
theorem run_trimmed (h : b.Omits a g others) (ha : a.Sound) (hb : b.Sound)
    (objects : List ObjectId) :
    (b.run ((positions others objects).map .trimmed)).Omits (a.run (objects.map .trimmed)) g
      others := by
  induction objects generalizing a b with
  | nil => exact h
  | cons o rest ih =>
    have ha' := ha.apply (.trimmed o)
    rw [List.map_cons, run_cons]
    by_cases ho : o ∈ others
    · rw [positions_cons_of_mem ho, List.map_cons, run_cons]
      exact ih (h.apply_trimmed ha hb ho).2 ha' (hb.apply (.trimmed _))
    · rw [positions_cons_of_notMem ho]
      exact ih (h.apply_trimmed_made ha ho) ha' hb

/-- Another frame is discarded. -/
theorem apply_discarded (h : b.Omits a g others) (ha : a.Sound) (hb : b.Sound)
    (hopen : k ∈ a.table.generations) (hne : k ≠ g) :
    (b.apply (.discarded k)).Omits (a.apply (.discarded k)) g others where
  next_eq := h.next_eq
  table_eq := congrArg (·.without k) h.table_eq
  minted := h.minted
  chain o ho := by
    dsimp only [Ledger.apply]
    rw [h.chain o ho, (ha.coherent o).omitting_discard (h.coherent_omitting hb ho) hopen hne]
  branched o ho r hr hgen := by
    have hrne : r.generation ≠ k := fun heq => hne (heq.symm.trans hgen)
    have hold := (Chain.mem_discard_of_ne hrne).mp hr
    obtain ⟨hg, hbase⟩ := h.branched o ho r hold hgen
    exact ⟨OpenTable.mem_generations_without.mpr ⟨hg, hne.symm⟩, hbase⟩
  made o ho r hr := by
    dsimp only [Ledger.apply] at hr
    rw [Chain.discard_eq_self (h.find?_made ho hne)] at hr
    obtain ⟨hgen, hdiscarded⟩ := h.made o ho r hr
    refine ⟨hgen, fun hclosed => hdiscarded fun hg => hclosed ?_⟩
    exact OpenTable.mem_generations_without.mpr ⟨hg, hne.symm⟩

/-- Another frame commits, and publishes the same. -/
theorem apply_committed (h : b.Omits a g others) (ha : a.Sound) (hb : b.Sound)
    {merges merges' : List (PendingMerge α)} (hadmits : a.Admits (.committed k merges))
    (hadmits' : b.Admits (.committed k merges')) (hne : k ≠ g)
    (hlength : merges'.length = merges.length)
    (hpublished : ∀ o ∈ others,
      published? a.next merges' (others.idxOf o) = published? a.next merges o)
    (hmade : ∀ o ∉ others, published? a.next merges o = none) :
    (b.apply (.committed k merges')).Omits (a.apply (.committed k merges)) g others := by
  have hopen := hadmits.mem_of_committed
  cases hadmits with
  | @committed _ invalid _ hentry hclean hmerged =>
  cases hadmits' with
  | committed hentry' hclean' hmerged' =>
  rw [h.next_eq, h.table_eq] at hmerged'
  refine ⟨congrArg₂ (· + ·) h.next_eq hlength, congrArg (·.without k) h.table_eq,
    Nat.lt_add_right _ h.minted, fun o ho => ?_, fun o ho r hr hgen => ?_, fun o ho r hr => ?_⟩
  · dsimp only [Ledger.apply]
    rw [h.next_eq, hpublished o ho, h.chain o ho]
    cases hrecord : published? a.next merges o with
    | none => rfl
    | some r =>
      obtain ⟨mine, base, newest, hcontended, -⟩ := hmerged o r hrecord
      obtain ⟨mine', base', newest', hcontended', -⟩ :=
        hmerged' (others.idxOf o) r ((hpublished o ho).trans hrecord)
      rw [h.chain o ho] at hcontended'
      exact (hcontended.omitting_publish hcontended' (ha.coherent o) (h.coherent_omitting hb ho)
        hopen h.minted (of_published? hrecord).2.1).symm
  · have hold : r ∈ (a.chain o).records := by
      dsimp only [Ledger.apply] at hr
      cases hrecord : published? a.next merges o with
      | none => simpa only [hrecord] using hr
      | some s =>
        obtain ⟨mine, base, newest, hcontended, -⟩ := hmerged o s hrecord
        have hnext := (of_published? hrecord).2.1
        rw [hrecord, hcontended.mem_publish (ha.coherent o) hopen hnext] at hr
        rcases hr with rfl | hr
        · exact absurd (hgen ▸ h.minted) (Nat.not_lt_of_le hnext)
        · exact hr.1
    obtain ⟨hg, hbase⟩ := h.branched o ho r hold hgen
    exact ⟨OpenTable.mem_generations_without.mpr ⟨hg, hne.symm⟩, hbase⟩
  · dsimp only [Ledger.apply] at hr
    rw [hmade o ho] at hr
    obtain ⟨hgen, hdiscarded⟩ := h.made o ho r hr
    refine ⟨hgen, fun hclosed => hdiscarded fun hg => hclosed ?_⟩
    exact OpenTable.mem_generations_without.mpr ⟨hg, hne.symm⟩

end Omits

end Ledger

end VersionedObjects.Store
