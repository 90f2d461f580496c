import VersionedObjects.Proofs.Store.Ledger
import Mathlib.Data.List.Sort

/-!
# Closed records

The closed records of a chain are those whose generation is not open. A commit adds one to them,
the record that it publishes, and adds it at the end: the record was branched from the newest
committed one, or merged with it. Main statement: what each effect that a ledger admits makes of the
closed records of an object.
-/

namespace VersionedObjects.Store

variable {α : Type}

namespace Chain

variable {c : Chain α} {next : Generation} {table : OpenTable}

/-- The records whose generation is not open, ascending. -/
def closed (c : Chain α) (opened : List Generation) : List (Record α) :=
  c.records.filter fun r => !opened.contains r.generation

/-- The closed records are those of generations that are not open. -/
theorem mem_closed {opened : List Generation} {r : Record α} :
    r ∈ c.closed opened ↔ r ∈ c.records ∧ r.generation ∉ opened := by
  simp [closed]

/-- A chain of one open record has no closed one. -/
theorem closed_singleton_of_mem {opened : List Generation} {r : Record α}
    (h : r.generation ∈ opened) : (singleton r).closed opened = [] :=
  List.filter_eq_nil_iff.mpr (by simpa [singleton] using h)

/-- A chain of one closed record has it alone. -/
theorem closed_singleton_of_notMem {opened : List Generation} {r : Record α}
    (h : r.generation ∉ opened) : (singleton r).closed opened = [r] :=
  List.filter_eq_self.mpr (by simpa [singleton] using h)

/-- The closed records of an ascending chain ascend. -/
theorem Ascending.closed (hc : c.Ascending) (opened : List Generation) :
    (c.closed opened).Pairwise fun r s => r.generation < s.generation :=
  List.Pairwise.sublist List.filter_sublist hc

/-- Ascending lists of the same records are the same. -/
theorem eq_of_ascending {records others : List (Record α)}
    (hrecords : records.Pairwise fun r s => r.generation < s.generation)
    (hothers : others.Pairwise fun r s => r.generation < s.generation)
    (h : ∀ r, r ∈ records ↔ r ∈ others) : records = others := by
  have hirrefl : Std.Irrefl fun r s : Record α => r.generation < s.generation :=
    ⟨fun _ => Nat.lt_irrefl _⟩
  have hantisymm : Std.Antisymm fun r s : Record α => r.generation < s.generation :=
    ⟨fun _ _ h h' => absurd h' (Nat.lt_asymm h)⟩
  exact hrecords.eq_of_mem_iff hothers h

/-- An ascending list that holds the closed records of a chain lists them. -/
theorem Ascending.closed_eq (hc : c.Ascending) {opened : List Generation}
    {records : List (Record α)}
    (hrecords : records.Pairwise fun r s => r.generation < s.generation)
    (h : ∀ r, r ∈ c.records ∧ r.generation ∉ opened ↔ r ∈ records) :
    c.closed opened = records :=
  eq_of_ascending (hc.closed opened) hrecords fun r => mem_closed.trans (h r)

/-- Beside a record of an open frame, whatever is closed is committed. -/
theorem Coherent.isCommitted_of_closed (hc : c.Coherent next table) {mine r : Record α}
    (hmine : mine ∈ c.records) (hopen : mine.generation ∈ table.generations)
    (hr : r ∈ c.records) (hclosed : r.generation ∉ table.generations) :
    r.isCommitted table.generations = true := by
  refine Record.isCommitted_iff.mpr ⟨?_, hclosed⟩
  rw [Bool.eq_false_iff]
  intro hdiscarded
  rw [(hc.tombstone r hr hdiscarded).1 mine hmine] at hopen
  exact hclosed hopen

/-- Beside a record of an open frame, the last closed record is the newest committed one. -/
theorem Coherent.getLast?_closed (hc : c.Coherent next table) {mine : Record α}
    (hmine : mine ∈ c.records) (hopen : mine.generation ∈ table.generations) :
    (c.closed table.generations).getLast? =
      c.inherited? table.generations (.snapshot next table.generations) := by
  rw [closed, List.getLast?_filter]
  refine hc.ascending.newest?_congr hc.ascending fun r => and_congr_right fun hr => ?_
  simp only [Bool.not_eq_true', ← Bool.not_eq_true, List.contains_iff_mem, Bool.and_eq_true]
  constructor
  · intro hclosed
    exact ⟨hc.isCommitted_of_closed hmine hopen hr hclosed,
      Visibility.canSee_snapshot.mpr ⟨hc.minted r hr, hclosed⟩⟩
  · exact fun h => (Record.isCommitted_iff.mp h.1).2

/-- Closing a generation that wrote nothing leaves the closed records alone. -/
theorem Ascending.closed_without_of_none (hc : c.Ascending) {g : Generation}
    (h : c.find? g = none) :
    c.closed (table.without g).generations = c.closed table.generations := by
  refine hc.closed_eq (hc.closed _) fun r => ?_
  rw [mem_closed, OpenTable.mem_generations_without, not_and_not_right]
  refine and_congr_right fun hr => ⟨fun hg hopen => ?_, fun hclosed hopen => absurd hopen hclosed⟩
  exact find?_eq_none_iff.mp h r hr (hg hopen)

/-- A frame that was shown every committed record of a chain branched its own record from the
newest of them, and its record is newer than all of them. -/
theorem Coherent.base_of_shown (hc : c.Coherent next table) {mine : Record α}
    {invalid : List Generation} (hmine : mine ∈ c.records)
    (hentry : (mine.generation, invalid) ∈ table)
    (hshown : ∀ s ∈ c.records, s.isCommitted table.generations = true →
      (Visibility.ofFrame mine.generation invalid).canSee s.generation = true) :
    mine.base = (c.inherited? table.generations (.snapshot next table.generations)).map
        (·.generation) ∧
      ∀ s ∈ c.closed table.generations, s.generation < mine.generation := by
  have hopen : mine.generation ∈ table.generations := OpenTable.mem_generations.mpr ⟨_, hentry⟩
  constructor
  · cases hbase : mine.base with
    | none =>
      have hnone : c.inherited? table.generations (.snapshot next table.generations) = none := by
        rw [inherited?_eq_none_iff]
        intro r hr hcommitted
        rw [hc.founded mine hmine hopen hbase r hr] at hcommitted
        exact absurd hopen (Record.isCommitted_iff.mp hcommitted).2
      rw [hnone, Option.map_none]
    | some b =>
      obtain ⟨s, hs, rfl⟩ := hc.branched mine hmine invalid hentry b hbase
      obtain ⟨hmem, hcommitted, -, hmax⟩ := hc.ascending.inherited?_eq_some_iff.mp hs
      have hnewest := hc.inherited?_snapshot_eq_some_iff.mpr
        ⟨hmem, hcommitted, fun t ht htc => hmax t ht htc (hshown t ht htc)⟩
      rw [hnewest, Option.map_some]
  · intro s hs
    obtain ⟨hmem, hclosed⟩ := mem_closed.mp hs
    have hsee := hshown s hmem (hc.isCommitted_of_closed hmine hopen hmem hclosed)
    refine Nat.lt_of_le_of_ne (Visibility.le_of_canSee_ofFrame hsee) fun heq => ?_
    exact hclosed (heq ▸ hopen)

end Chain

namespace Ledger

variable {l : Ledger α}

/-- The records of an object whose generation is not open, ascending. -/
def closed (l : Ledger α) (o : ObjectId) : List (Record α) :=
  (l.chain o).closed l.table.generations

/-- A record of an object is closed when its generation is not in the table of open frames. -/
theorem mem_closed {o : ObjectId} {r : Record α} :
    r ∈ l.closed o ↔ r ∈ (l.chain o).records ∧ r.generation ∉ l.table.generations :=
  Chain.mem_closed

/-- An object without records has no closed ones. -/
theorem closed_of_empty {o : ObjectId} (h : (l.chain o).records = []) : l.closed o = [] := by
  rw [closed, Chain.closed, h, List.filter_nil]

/-- The newest committed record is the last closed one that was not discarded. -/
theorem Sound.newest?_eq (hl : l.Sound) (o : ObjectId) :
    l.newest? o = (l.closed o).reverse.find? fun r => !r.discarded := by
  have hc := hl.coherent o
  rw [closed, Chain.closed, ← List.filter_reverse, List.find?_filter]
  refine hc.ascending.newest?_congr hc.ascending fun r => and_congr_right fun hr => ?_
  rw [Bool.and_eq_true, Record.isCommitted_iff, Visibility.canSee_snapshot]
  simp only [decide_eq_true_eq, Bool.not_eq_true', List.contains_eq_mem, decide_eq_false_iff_not]
  constructor
  · rintro ⟨⟨hlive, hclosed⟩, -⟩
    exact ⟨hclosed, hlive⟩
  · rintro ⟨hclosed, hlive⟩
    exact ⟨⟨hlive, hclosed⟩, hc.minted r hr, hclosed⟩

/-- The record of an object that a commit of a generation makes visible: the merged one or the
frame's own. -/
def revealed? (l : Ledger α) (g : Generation) (merges : List (PendingMerge α)) (o : ObjectId) :
    Option (Record α) :=
  (published? l.next merges o).or ((l.chain o).find? g)

/-- An admitted commit is of an open generation. -/
theorem Admits.mem_of_committed {g : Generation} {merges : List (PendingMerge α)}
    (h : l.Admits (.committed g merges)) : g ∈ l.table.generations := by
  cases h with
  | committed hentry _ _ => exact OpenTable.mem_generations.mpr ⟨_, hentry⟩

/-- An admitted commit publishes a record of each object of which its frame has one. -/
theorem Admits.isSome_revealed? {g : Generation} {merges : List (PendingMerge α)}
    (h : l.Admits (.committed g merges)) (o : ObjectId) :
    (l.revealed? g merges o).isSome = ((l.chain o).find? g).isSome := by
  cases h with
  | committed hentry hclean hmerged =>
  rw [revealed?]
  cases hr : published? l.next merges o with
  | none => rw [Option.none_or]
  | some r =>
    obtain ⟨mine, base, newest, hcontended, -⟩ := hmerged o r hr
    have hmine : (l.chain o).find? g = some mine := hcontended.mine_eq
    rw [hmine]
    rfl

/-- A record that a commit of a generation publishes for an object: it was branched from the newest
committed one, or merged with it, and is newer than all that are closed. -/
structure Publishes (l : Ledger α) (g : Generation) (o : ObjectId) (r : Record α) : Prop where
  live : r.discarded = false
  last_eq : (l.closed o).getLast? = l.newest? o
  base_eq : r.base = (l.newest? o).map (·.generation)
  fresh : r.generation = g ∨ l.next ≤ r.generation
  newer : ∀ s ∈ l.closed o, s.generation < r.generation

/-- An admitted commit publishes such records. -/
theorem Sound.publishes (hl : l.Sound) {g : Generation} {merges : List (PendingMerge α)}
    (h : l.Admits (.committed g merges)) {o : ObjectId} {r : Record α}
    (hr : l.revealed? g merges o = some r) : l.Publishes g o r := by
  have hc := hl.coherent o
  have hopen := h.mem_of_committed
  cases h with
  | @committed _ invalid _ hentry hclean hmerged =>
  rw [revealed?] at hr
  cases hmerge : published? l.next merges o with
  | none =>
    rw [hmerge, Option.none_or] at hr
    obtain ⟨hmem, rfl⟩ := Chain.mem_of_find? hr
    obtain ⟨hbase, hlt⟩ := hc.base_of_shown hmem hentry (hclean o hmerge r hmem rfl)
    exact ⟨hc.discarded_eq_false hmem hopen, hc.getLast?_closed hmem hopen, hbase, Or.inl rfl, hlt⟩
  | some merged =>
    rw [hmerge, Option.some_or] at hr
    obtain rfl := Option.some.inj hr
    obtain ⟨-, hle, -, hdiscarded⟩ := of_published? hmerge
    obtain ⟨mine, base, newest, hcontended, hbase⟩ := hmerged o merged hmerge
    obtain ⟨hmem, hgen⟩ := Chain.mem_of_find? hcontended.mine_eq
    have hgen : mine.generation = g := hgen
    refine ⟨hdiscarded, hc.getLast?_closed hmem (hgen ▸ hopen), ?_, Or.inr hle, fun s hs => ?_⟩
    · rw [hbase, newest?, hcontended.newest_eq, Option.map_some]
    · exact Nat.lt_of_lt_of_le (hc.minted s (Chain.mem_closed.mp hs).1) hle

/-- A commit adds the record that it publishes to the closed records, as the last one. -/
theorem Sound.closed_committed (hl : l.Sound) {g : Generation} {merges : List (PendingMerge α)}
    (h : l.Admits (.committed g merges)) (o : ObjectId) :
    (l.apply (.committed g merges)).closed o =
      l.closed o ++ (l.revealed? g merges o).toList := by
  have hc := hl.coherent o
  have hc' := (hl.apply h).coherent o
  have hopen := h.mem_of_committed
  cases hr : l.revealed? g merges o with
  | none =>
    obtain ⟨hmerge, hmine⟩ := Option.or_eq_none_iff.mp hr
    dsimp only [closed, Ledger.apply]
    rw [hmerge, Option.toList_none, List.append_nil]
    exact hc.ascending.closed_without_of_none hmine
  | some r =>
    have hpublishes := hl.publishes h hr
    have hextends : (l.closed o ++ [r]).Pairwise fun r s => r.generation < s.generation := by
      rw [List.pairwise_append]
      refine ⟨hc.ascending.closed _, List.pairwise_singleton _ _, fun s hs t ht => ?_⟩
      rw [List.mem_singleton.mp ht]
      exact hpublishes.newer s hs
    rw [Option.toList_some]
    refine hc'.ascending.closed_eq hextends fun s => ?_
    rw [List.mem_append, List.mem_singleton, mem_closed]
    cases h with
    | committed hentry hclean hmerged =>
    rw [revealed?] at hr
    dsimp only [Ledger.apply]
    rw [OpenTable.mem_generations_without, not_and_not_right]
    cases hmerge : published? l.next merges o with
    | none =>
      rw [hmerge, Option.none_or] at hr
      obtain ⟨hmem, rfl⟩ := Chain.mem_of_find? hr
      constructor
      · rintro ⟨hs, hg⟩
        by_cases hsopen : s.generation ∈ l.table.generations
        · exact Or.inr (hc.ascending.eq_of_generation_eq hs hmem (hg hsopen))
        · exact Or.inl ⟨hs, hsopen⟩
      · rintro (⟨hs, hsclosed⟩ | rfl)
        · exact ⟨hs, fun hsopen => absurd hsopen hsclosed⟩
        · exact ⟨hmem, fun _ => rfl⟩
    | some merged =>
      rw [hmerge, Option.some_or] at hr
      obtain rfl := Option.some.inj hr
      obtain ⟨-, hle, -⟩ := of_published? hmerge
      obtain ⟨mine, base, newest, hcontended, -⟩ := hmerged o merged hmerge
      dsimp only
      rw [hcontended.mem_publish hc hopen hle]
      constructor
      · rintro ⟨rfl | ⟨hs, hne⟩, hg⟩
        · exact Or.inr rfl
        · exact Or.inl ⟨hs, fun hsopen => hne (hg hsopen)⟩
      · rintro (⟨hs, hsclosed⟩ | rfl)
        · exact ⟨Or.inr ⟨hs, fun heq => hsclosed (heq ▸ hopen)⟩,
            fun hsopen => absurd hsopen hsclosed⟩
        · exact ⟨Or.inl rfl, fun hsopen =>
            absurd (hl.timely.lt_of_mem hsopen) (Nat.not_lt_of_le hle)⟩

/-- The record that an open frame made an object with stands alone, and is not closed. -/
theorem Sound.closed_of_founded (hl : l.Sound) {o : ObjectId} {mine : Record α}
    (hmine : mine ∈ (l.chain o).records) (hopen : mine.generation ∈ l.table.generations)
    (hbase : mine.base = none) : l.chain o = .singleton mine ∧ l.closed o = [] := by
  have hc := hl.coherent o
  have hchain : l.chain o = .singleton mine := by
    rw [Chain.singleton,
      ← hc.ascending.records_eq_singleton hmine (hc.founded mine hmine hopen hbase)]
  exact ⟨hchain, by rw [closed, hchain, Chain.closed_singleton_of_mem hopen]⟩

/-- Of a discarded frame a closed record is left only if the frame made the object. -/
theorem Sound.closed_discarded (hl : l.Sound) {g : Generation}
    (hopen : g ∈ l.table.generations) (o : ObjectId) :
    (l.apply (.discarded g)).closed o =
      match (l.chain o).find? g with
      | some mine => if mine.base = none then [{ mine with discarded := true }] else l.closed o
      | none => l.closed o := by
  have hc := hl.coherent o
  dsimp only [closed, Ledger.apply]
  cases hmine : (l.chain o).find? g with
  | none =>
    rw [Chain.discard_eq_self hmine]
    exact hc.ascending.closed_without_of_none hmine
  | some mine =>
    dsimp only
    obtain ⟨hmem, rfl⟩ := Chain.mem_of_find? hmine
    split
    · next hbase =>
      obtain ⟨hchain, -⟩ := hl.closed_of_founded hmem hopen hbase
      have hdiscarded : (Chain.singleton mine).discard mine.generation =
          .singleton { mine with discarded := true } := by
        simp [Chain.discard, Chain.canUnlink, Chain.size, Chain.singleton, Chain.modify]
      rw [hchain, hdiscarded]
      refine Chain.closed_singleton_of_notMem fun h => ?_
      exact (OpenTable.mem_generations_without.mp h).2 rfl
    · next hbase =>
      obtain ⟨invalid, hentry⟩ := OpenTable.mem_generations.mp hopen
      have hunlink := hc.canUnlink_of_base hmem hentry hbase
      refine (hc.ascending.discard _).closed_eq (hc.ascending.closed _) fun r => ?_
      rw [Chain.discard, if_pos hunlink, Chain.mem_unlink hunlink, Chain.mem_closed,
        OpenTable.mem_generations_without]
      constructor
      · rintro ⟨⟨hr, hne⟩, hclosed⟩
        exact ⟨hr, fun h => hclosed ⟨h, hne⟩⟩
      · rintro ⟨hr, hclosed⟩
        exact ⟨⟨hr, fun heq => hclosed (heq ▸ hopen)⟩, fun h => hclosed h.1⟩

/-- The closed records of an object after an effect. -/
def closedAfter (l : Ledger α) (o : ObjectId) : Effect α → List (Record α)
  | .opened | .founded .. | .branched .. => l.closed o
  | .created p value =>
    if o = p then [{ generation := l.next, base := none, value }] else l.closed o
  | .committed g merges => l.closed o ++ (l.revealed? g merges o).toList
  | .discarded g =>
    match (l.chain o).find? g with
    | some mine => if mine.base = none then [{ mine with discarded := true }] else l.closed o
    | none => l.closed o
  | .trimmed p =>
    if o = p then ((l.chain o).trim l.view).closed l.table.generations else l.closed o
  | .stored p g change =>
    if o = p then (l.closed o).map (Record.stored g change) else l.closed o

/-- What each admitted effect makes of the closed records. -/
theorem Sound.closed_apply (hl : l.Sound) {effect : Effect α} (h : l.Admits effect)
    (o : ObjectId) : (l.apply effect).closed o = l.closedAfter o effect := by
  have hc := hl.coherent o
  have hc' := (hl.apply h).coherent o
  cases h with
  | opened =>
    refine hc'.ascending.closed_eq (hc.ascending.closed _) fun r => ?_
    rw [closedAfter, mem_closed]
    refine and_congr_right fun hr => not_congr ?_
    rw [Ledger.apply, OpenTable.mem_generations_append, or_iff_left]
    exact Nat.ne_of_lt (hc.minted r hr)
  | founded hnil hopen =>
    rw [Ledger.apply, closed, modifyChain_chain, modifyChain_table, closedAfter]
    split
    · next heq =>
      subst heq
      rw [Chain.closed_singleton_of_mem hopen, closed_of_empty hnil]
    · rfl
  | created hnil =>
    rw [Ledger.apply, closed, modifyChain_chain, modifyChain_table, closedAfter]
    split
    · have hnew : l.next ∉ l.tick.table.generations := hl.timely.next_notMem (Nat.le_refl _)
      rw [Chain.closed_singleton_of_notMem hnew]
    · rfl
  | branched hentry hnew hselect hbase hdiscarded =>
    have hopen := OpenTable.mem_generations.mpr ⟨_, hentry⟩
    rw [Ledger.apply, closed, modifyChain_chain, modifyChain_table, closedAfter]
    split
    · next heq =>
      subst heq
      refine (hc.ascending.link _).closed_eq (hc.ascending.closed _) fun s => ?_
      rw [Chain.mem_link hnew, mem_closed]
      constructor
      · rintro ⟨rfl | hs, hclosed⟩
        · exact absurd hopen hclosed
        · exact ⟨hs, hclosed⟩
      · rintro ⟨hs, hclosed⟩
        exact ⟨Or.inr hs, hclosed⟩
    · rfl
  | committed hentry hclean hmerged =>
    exact hl.closed_committed (.committed hentry hclean hmerged) o
  | discarded hopen => exact hl.closed_discarded hopen o
  | trimmed p =>
    rw [Ledger.apply, closed, modifyChain_chain, modifyChain_table, closedAfter]
    split <;> rfl
  | stored p g change =>
    rw [Ledger.apply, closed, modifyChain_chain, modifyChain_table, closedAfter]
    split
    · rw [Chain.closed, Chain.records_store, List.filter_map, closed, Chain.closed]
      congr 2
      funext r
      simp only [Function.comp_apply, Record.stored_generation]
    · rfl

end Ledger

end VersionedObjects.Store
