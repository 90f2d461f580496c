import VersionedObjects.Proofs.Store.Coherence

/-!
# Changes to coherent chains

One pair of lemmas for each way in which a chain or its open table changes: the chain stays
coherent, and every frame that stays open inherits what it inherited before. A new record of an
open frame is not committed; a record that a commit publishes is shown to no frame that is open;
trimming keeps what any reader inherits.
-/

namespace VersionedObjects.Store

variable {α : Type} {c : Chain α} {next : Generation} {table : OpenTable}

namespace Chain

/-! ## Opening a frame -/

/-- A record below the clock is committed as much after a frame is opened as before. -/
theorem Coherent.isCommitted_openNext (hc : c.Coherent next table) {r : Record α}
    (hr : r ∈ c.records) {invalid : List Generation} :
    r.isCommitted (OpenTable.generations (table ++ [(next, invalid)])) =
      r.isCommitted table.generations := by
  have hne : r.generation ≠ next := Nat.ne_of_lt (hc.minted r hr)
  rw [Bool.eq_iff_iff, Record.isCommitted_iff, Record.isCommitted_iff,
    OpenTable.mem_generations_append]
  simp only [hne, or_false]

/-- Opening a frame changes nothing that is inherited. -/
theorem Coherent.inherited?_openNext (hc : c.Coherent next table) (invalid : List Generation)
    (view : Visibility) :
    c.inherited? (OpenTable.generations (table ++ [(next, invalid)])) view =
      c.inherited? table.generations view := by
  apply hc.ascending.inherited?_congr hc.ascending
  rintro r -
  constructor
  · rintro ⟨hr, hcommitted⟩
    exact ⟨hr, hc.isCommitted_openNext hr ▸ hcommitted⟩
  · rintro ⟨hr, hcommitted⟩
    exact ⟨hr, (hc.isCommitted_openNext hr).symm ▸ hcommitted⟩

/-- A chain stays coherent when a frame is opened: the new frame is shown every committed
record. -/
theorem Coherent.openNext (hc : c.Coherent next table) :
    c.Coherent (next + 1) (table ++ [(next, table.generations)]) where
  ascending := hc.ascending
  minted r hr := Nat.lt_succ_of_lt (hc.minted r hr)
  tombstone r hr hdiscarded := by
    obtain ⟨hsole, hbase, hclosed⟩ := hc.tombstone r hr hdiscarded
    refine ⟨hsole, hbase, fun hopen => ?_⟩
    rcases OpenTable.mem_generations_append.mp hopen with hopen | heq
    · exact hclosed hopen
    · exact Nat.ne_of_lt (hc.minted r hr) heq
  founded r hr hopen hbase := by
    rcases OpenTable.mem_generations_append.mp hopen with hopen | heq
    · exact hc.founded r hr hopen hbase
    · exact absurd heq (Nat.ne_of_lt (hc.minted r hr))
  branched r hr invalid hentry b hbase := by
    rw [hc.inherited?_openNext]
    rcases List.mem_append.mp hentry with hentry | hentry
    · exact hc.branched r hr invalid hentry b hbase
    · have heq : r.generation = next := congrArg Prod.fst (List.mem_singleton.mp hentry)
      exact absurd heq (Nat.ne_of_lt (hc.minted r hr))
  downward entry hentry r hr s hs hrcommitted hscommitted hle hsee := by
    rw [hc.isCommitted_openNext hr] at hrcommitted
    rw [hc.isCommitted_openNext hs] at hscommitted
    rcases List.mem_append.mp hentry with hentry | hentry
    · exact hc.downward entry hentry r hr s hs hrcommitted hscommitted hle hsee
    · rw [List.mem_singleton.mp hentry]
      exact Visibility.canSee_ofFrame.mpr
        (Or.inr ⟨hc.minted r hr, (Record.isCommitted_iff.mp hrcommitted).2⟩)

/-! ## Branching a record -/

/-- A record that is not committed adds nothing to what is inherited. -/
theorem Ascending.inherited?_link (hc : c.Ascending) {r : Record α} {opened : List Generation}
    (hnew : c.find? r.generation = none) (hopen : r.generation ∈ opened) (view : Visibility) :
    (c.link r).inherited? opened view = c.inherited? opened view := by
  apply hc.inherited?_congr (hc.link r)
  rintro s -
  rw [mem_link hnew]
  constructor
  · rintro ⟨rfl | hs, hcommitted⟩
    · exact absurd hopen (Record.isCommitted_iff.mp hcommitted).2
    · exact ⟨hs, hcommitted⟩
  · rintro ⟨hs, hcommitted⟩
    exact ⟨Or.inr hs, hcommitted⟩

/-- A frame that branches its record from the one it selects keeps the chain coherent. -/
theorem Coherent.branch (hc : c.Coherent next table) (ht : Timely next table) {r base : Record α}
    {invalid : List Generation} (hentry : (r.generation, invalid) ∈ table)
    (hnew : c.find? r.generation = none)
    (hselect : c.select? (.ofFrame r.generation invalid) = some base)
    (hbase : r.base = some base.generation) (hdiscarded : r.discarded = false) :
    (c.link r).Coherent next table := by
  have hopen : r.generation ∈ table.generations := OpenTable.mem_generations.mpr ⟨invalid, hentry⟩
  have hinherited : c.inherited? table.generations (.ofFrame r.generation invalid) = some base := by
    rw [hc.select?_ofFrame ht hentry, hnew, Option.none_or] at hselect
    exact hselect
  obtain ⟨hmem, hcommitted, _, _⟩ := hc.ascending.inherited?_eq_some_iff.mp hinherited
  obtain ⟨hlive, hclosed⟩ := Record.isCommitted_iff.mp hcommitted
  refine ⟨hc.ascending.link r, ?_, ?_, ?_, ?_, ?_⟩
  · intro s hs
    rcases (mem_link hnew).mp hs with rfl | hs
    · exact ht.lt_of_mem hopen
    · exact hc.minted s hs
  · -- The base is neither discarded nor alone with a discarded record.
    intro s hs hsdiscarded
    rcases (mem_link hnew).mp hs with rfl | hs
    · rw [hdiscarded] at hsdiscarded
      cases hsdiscarded
    · rw [(hc.tombstone s hs hsdiscarded).1 base hmem, hsdiscarded] at hlive
      cases hlive
  · intro s hs hsopen hsbase
    rcases (mem_link hnew).mp hs with rfl | hs
    · rw [hbase] at hsbase
      cases hsbase
    · rw [hc.founded s hs hsopen hsbase base hmem] at hclosed
      exact absurd hsopen hclosed
  · intro s hs invalid' hentry' b hb
    rw [hc.ascending.inherited?_link hnew hopen]
    rcases (mem_link hnew).mp hs with rfl | hs
    · obtain rfl := ht.eq_of_mem hentry hentry'
      exact ⟨base, hinherited, Option.some.inj (hbase.symm.trans hb)⟩
    · exact hc.branched s hs invalid' hentry' b hb
  · intro entry hentry' s hs t ht' hscommitted htcommitted
    rcases (mem_link hnew).mp hs with rfl | hs
    · exact absurd hopen (Record.isCommitted_iff.mp hscommitted).2
    · rcases (mem_link hnew).mp ht' with rfl | ht'
      · exact absurd hopen (Record.isCommitted_iff.mp htcommitted).2
      · exact hc.downward entry hentry' s hs t ht' hscommitted htcommitted

/-! ## Closing a frame -/

/-- What an open frame is shown of a chain is not changed when another generation closes. -/
theorem isCommitted_without_iff (ht : Timely next table) {g : Generation}
    {entry : Generation × List Generation} (hg : g ∈ table.generations)
    (hentry : entry ∈ table.without g) {r : Record α}
    (hsee : (Visibility.ofFrame entry.1 entry.2).canSee r.generation = true) :
    r.isCommitted (table.without g).generations = true ↔
      r.isCommitted table.generations = true := by
  obtain ⟨hmem, hne⟩ := OpenTable.mem_without.mp hentry
  have hrg : r.generation ≠ g := by
    intro heq
    rw [heq, ht.hidden hmem hg (Ne.symm hne)] at hsee
    cases hsee
  simp only [Record.isCommitted_iff, OpenTable.mem_generations_without, hrg, ne_eq,
    not_false_eq_true, and_true]

/-- Closing a generation changes nothing that another open frame inherits. -/
theorem Ascending.inherited?_without (hc : c.Ascending) (ht : Timely next table) {g : Generation}
    {entry : Generation × List Generation} (hg : g ∈ table.generations)
    (hentry : entry ∈ table.without g) :
    c.inherited? (table.without g).generations (.ofFrame entry.1 entry.2) =
      c.inherited? table.generations (.ofFrame entry.1 entry.2) := by
  apply hc.inherited?_congr hc
  intro r hsee
  rw [isCommitted_without_iff ht hg hentry hsee]

/-- A record that is committed after a generation closes was committed before or is of that
generation. -/
theorem isCommitted_or_eq_of_without {g : Generation} {r : Record α}
    (h : r.isCommitted (table.without g).generations = true) :
    r.isCommitted table.generations = true ∨ r.generation = g := by
  obtain ⟨hlive, hclosed⟩ := Record.isCommitted_iff.mp h
  rw [OpenTable.mem_generations_without, not_and_not_right] at hclosed
  by_cases hopen : r.generation ∈ table.generations
  · exact Or.inr (hclosed hopen)
  · exact Or.inl (Record.isCommitted_iff.mpr ⟨hlive, hopen⟩)

/-- A frame that was shown every committed record of the chain, or wrote none of it, commits and
leaves the chain coherent. -/
theorem Coherent.commit (hc : c.Coherent next table) (ht : Timely next table) {g : Generation}
    {invalid : List Generation} (hg : (g, invalid) ∈ table)
    (hclean : ∀ mine ∈ c.records, mine.generation = g → ∀ s ∈ c.records,
      s.isCommitted table.generations = true →
      (Visibility.ofFrame g invalid).canSee s.generation = true) :
    c.Coherent next (table.without g) := by
  have hopen : g ∈ table.generations := OpenTable.mem_generations.mpr ⟨invalid, hg⟩
  refine ⟨hc.ascending, hc.minted, ?_, ?_, ?_, ?_⟩
  · intro r hr hdiscarded
    obtain ⟨hsole, hbase, hclosed⟩ := hc.tombstone r hr hdiscarded
    exact ⟨hsole, hbase, fun h => hclosed (OpenTable.mem_generations_without.mp h).1⟩
  · intro r hr hropen hbase
    exact hc.founded r hr (OpenTable.mem_generations_without.mp hropen).1 hbase
  · intro r hr invalid' hentry b hbase
    rw [hc.ascending.inherited?_without ht hopen hentry]
    exact hc.branched r hr invalid' (OpenTable.mem_without.mp hentry).1 b hbase
  · intro entry hentry r hr s hs hrcommitted hscommitted hle hsee
    rw [isCommitted_without_iff ht hopen hentry hsee] at hscommitted
    obtain ⟨hmem, _⟩ := OpenTable.mem_without.mp hentry
    rcases isCommitted_or_eq_of_without hrcommitted with hrcommitted | heq
    · exact hc.downward entry hmem r hr s hs hrcommitted hscommitted hle hsee
    · -- The committing frame was shown the newer record, so its own cannot be the older one.
      have hle' := Visibility.le_of_canSee_ofFrame (hclean r hr heq s hs hscommitted)
      have hsg : s.generation = g := Nat.le_antisymm hle' (heq ▸ hle)
      exact absurd (hsg ▸ hopen) (Record.isCommitted_iff.mp hscommitted).2

/-! ## Publishing a merged value -/

/-- The record published by a merge is newer than every open frame and takes the place of the
frame's own. -/
theorem mem_publish {g : Generation} {mine k r s : Record α} (hmine : mine ∈ c.records)
    (hgen : mine.generation = g) (hk : k ∈ c.records) (hne : k ≠ mine)
    (hnew : ∀ s ∈ c.records, s.generation ≠ r.generation) :
    s ∈ ((c.unlink g).link r).records ↔ s = r ∨ (s ∈ c.records ∧ s.generation ≠ g) := by
  have hunlink : c.canUnlink g = true := hgen ▸ canUnlink_of_mem hmine hk hne
  rw [mem_link, mem_unlink hunlink]
  rw [find?_eq_none_iff]
  exact fun t ht => hnew t ((mem_unlink hunlink).mp ht).1

/-- The value a commit merges is shown to no frame that is open. -/
theorem Coherent.inherited?_publish (hc : c.Coherent next table) (ht : Timely next table)
    {g : Generation} (hg : g ∈ table.generations) {mine k r : Record α} (hmine : mine ∈ c.records)
    (hgen : mine.generation = g) (hk : k ∈ c.records)
    (hcommitted : k.isCommitted table.generations = true) (hnext : next ≤ r.generation)
    {entry : Generation × List Generation} (hentry : entry ∈ table.without g) :
    ((c.unlink g).link r).inherited? (table.without g).generations (.ofFrame entry.1 entry.2) =
      c.inherited? table.generations (.ofFrame entry.1 entry.2) := by
  have hne : k ≠ mine := by
    rintro rfl
    exact absurd (hgen ▸ hg) (Record.isCommitted_iff.mp hcommitted).2
  have hmem {s : Record α} := mem_publish (s := s) hmine hgen hk hne (r := r) fun s hs =>
    Nat.ne_of_lt (Nat.lt_of_lt_of_le (hc.minted s hs) hnext)
  apply hc.ascending.inherited?_congr ((hc.ascending.unlink g).link r)
  intro s hsee
  rw [hmem, isCommitted_without_iff ht hg hentry hsee]
  constructor
  · rintro ⟨rfl | ⟨hs, _⟩, hscommitted⟩
    · have hlt := ht.minted entry (OpenTable.mem_without.mp hentry).1
      exact absurd (Visibility.le_of_canSee_ofFrame hsee)
        (Nat.not_le_of_lt (Nat.lt_of_lt_of_le hlt hnext))
    · exact ⟨hs, hscommitted⟩
  · rintro ⟨hs, hscommitted⟩
    exact ⟨Or.inr ⟨hs, fun heq => (Record.isCommitted_iff.mp hscommitted).2 (heq ▸ hg)⟩,
      hscommitted⟩

/-- A merged value in place of the frame's own record leaves the chain coherent. -/
theorem Coherent.publish (hc : c.Coherent next table) (ht : Timely next table)
    {g : Generation} (hg : g ∈ table.generations) {mine k r : Record α} (hmine : mine ∈ c.records)
    (hgen : mine.generation = g) (hk : k ∈ c.records)
    (hcommitted : k.isCommitted table.generations = true) (hnext : next ≤ r.generation)
    {later : Generation} (hlater : r.generation < later) (hdiscarded : r.discarded = false) :
    ((c.unlink g).link r).Coherent later (table.without g) := by
  have hne : k ≠ mine := by
    rintro rfl
    exact absurd (hgen ▸ hg) (Record.isCommitted_iff.mp hcommitted).2
  have hmem {s : Record α} := mem_publish (s := s) hmine hgen hk hne (r := r) fun s hs =>
    Nat.ne_of_lt (Nat.lt_of_lt_of_le (hc.minted s hs) hnext)
  have hclosed : r.generation ∉ (table.without g).generations := (ht.without g).next_notMem hnext
  refine ⟨(hc.ascending.unlink g).link r, ?_, ?_, ?_, ?_, ?_⟩
  · intro s hs
    rcases hmem.mp hs with rfl | ⟨hs, _⟩
    · exact hlater
    · exact Nat.lt_trans (Nat.lt_of_lt_of_le (hc.minted s hs) hnext) hlater
  · -- The chain held two records, so none of them was a discarded one left alone.
    intro s hs hsdiscarded
    rcases hmem.mp hs with rfl | ⟨hs, hsg⟩
    · rw [hdiscarded] at hsdiscarded
      cases hsdiscarded
    · rw [← (hc.tombstone s hs hsdiscarded).1 mine hmine] at hsg
      exact absurd hgen hsg
  · intro s hs hsopen hsbase
    rcases hmem.mp hs with rfl | ⟨hs, hsg⟩
    · exact absurd hsopen hclosed
    · have hsold := (OpenTable.mem_generations_without.mp hsopen).1
      rw [← hc.founded s hs hsold hsbase mine hmine] at hsg
      exact absurd hgen hsg
  · intro s hs invalid hentry b hbase
    rcases hmem.mp hs with rfl | ⟨hs, _⟩
    · exact absurd (OpenTable.mem_generations.mpr ⟨invalid, hentry⟩) hclosed
    · rw [hc.inherited?_publish ht hg hmine hgen hk hcommitted hnext hentry]
      exact hc.branched s hs invalid (OpenTable.mem_without.mp hentry).1 b hbase
  · intro entry hentry s hs t hmemt hscommitted htcommitted hle hsee
    obtain ⟨hentry', _⟩ := OpenTable.mem_without.mp hentry
    rcases hmem.mp hmemt with rfl | ⟨htold, _⟩
    · exact absurd (Visibility.le_of_canSee_ofFrame hsee)
        (Nat.not_le_of_lt (Nat.lt_of_lt_of_le (ht.minted entry hentry') hnext))
    rw [isCommitted_without_iff ht hg hentry hsee] at htcommitted
    rcases hmem.mp hs with rfl | ⟨hsold, hsg⟩
    · exact absurd hle (Nat.not_le_of_lt (Nat.lt_of_lt_of_le (hc.minted t htold) hnext))
    · have hscommitted' := (isCommitted_or_eq_of_without hscommitted).resolve_right hsg
      exact hc.downward entry hentry' s hsold t htold hscommitted' htcommitted hle hsee

/-! ## Discarding a frame -/

/-- A frame's record that cannot be taken out is the one its object was made with. -/
theorem Coherent.sole_of_not_canUnlink (hc : c.Coherent next table) {mine : Record α}
    {invalid : List Generation} (hmine : mine ∈ c.records)
    (hentry : (mine.generation, invalid) ∈ table) (hkeep : ¬ c.canUnlink mine.generation = true) :
    (∀ s ∈ c.records, s = mine) ∧ mine.base = none := by
  have hsole : ∀ s ∈ c.records, s = mine := by
    intro s hs
    by_contra hne
    exact hkeep (canUnlink_of_mem hmine hs hne)
  refine ⟨hsole, ?_⟩
  cases hbase : mine.base with
  | none => rfl
  | some b =>
    obtain ⟨s, hs, _⟩ := hc.branched mine hmine invalid hentry b hbase
    obtain ⟨hmem, hcommitted, _⟩ := hc.ascending.inherited?_eq_some_iff.mp hs
    rw [hsole s hmem] at hcommitted
    exact absurd (OpenTable.mem_generations.mpr ⟨invalid, hentry⟩)
      (Record.isCommitted_iff.mp hcommitted).2

/-- A frame's record that was branched from another one can be taken out. -/
theorem Coherent.canUnlink_of_base (hc : c.Coherent next table) {mine : Record α}
    {invalid : List Generation} (hmine : mine ∈ c.records)
    (hentry : (mine.generation, invalid) ∈ table) (hbase : mine.base ≠ none) :
    c.canUnlink mine.generation = true := by
  by_contra hkeep
  exact hbase (hc.sole_of_not_canUnlink hmine hentry hkeep).2

/-- What is committed after a frame was discarded was committed before. -/
theorem mem_discard_committed_iff {g : Generation} {invalid : List Generation}
    (hg : (g, invalid) ∈ table) {s : Record α} :
    s ∈ (c.discard g).records ∧ s.isCommitted (table.without g).generations = true ↔
      s ∈ c.records ∧ s.isCommitted table.generations = true := by
  have hopen : g ∈ table.generations := OpenTable.mem_generations.mpr ⟨invalid, hg⟩
  have hafter {s : Record α} (hs : s.isCommitted table.generations = true) :
      s.isCommitted (table.without g).generations = true := by
    obtain ⟨hlive, hclosed⟩ := Record.isCommitted_iff.mp hs
    exact Record.isCommitted_iff.mpr
      ⟨hlive, fun h => hclosed (OpenTable.mem_generations_without.mp h).1⟩
  have hgne {s : Record α} (hs : s.isCommitted table.generations = true) : s.generation ≠ g :=
    fun heq => (Record.isCommitted_iff.mp hs).2 (heq ▸ hopen)
  unfold Chain.discard
  split
  · next hunlink =>
    rw [mem_unlink hunlink]
    constructor
    · rintro ⟨⟨hs, hne⟩, hcommitted⟩
      exact ⟨hs, (isCommitted_or_eq_of_without hcommitted).resolve_right hne⟩
    · rintro ⟨hs, hcommitted⟩
      exact ⟨⟨hs, hgne hcommitted⟩, hafter hcommitted⟩
  · next hkeep =>
    rw [mem_modify]
    constructor
    · rintro ⟨⟨t, htmem, rfl⟩, hcommitted⟩
      split at hcommitted
      · simp [Record.isCommitted] at hcommitted
      · next hne =>
        rw [if_neg hne]
        exact ⟨htmem, (isCommitted_or_eq_of_without hcommitted).resolve_right hne⟩
    · rintro ⟨hs, hcommitted⟩
      exact ⟨⟨s, hs, if_neg (hgne hcommitted)⟩, hafter hcommitted⟩

/-- Discarding a frame changes nothing that another open frame inherits. -/
theorem Coherent.inherited?_discard (hc : c.Coherent next table) {g : Generation}
    {invalid : List Generation} (hg : (g, invalid) ∈ table) (view : Visibility) :
    (c.discard g).inherited? (table.without g).generations view =
      c.inherited? table.generations view := by
  apply hc.ascending.inherited?_congr (hc.ascending.discard g)
  exact fun s _ => mem_discard_committed_iff hg

/-- Discarding a frame leaves the chain coherent. -/
theorem Coherent.discard (hc : c.Coherent next table) {g : Generation}
    {invalid : List Generation} (hg : (g, invalid) ∈ table) :
    (c.discard g).Coherent next (table.without g) := by
  have hrecord {r : Record α} (hr : r ∈ (c.discard g).records) :
      (r ∈ c.records ∧ r.generation ≠ g) ∨
        ((∀ s ∈ (c.discard g).records, s = r) ∧ r.generation = g ∧ r.base = none ∧
          r.discarded = true ∧ r.generation < next) := by
    by_cases hunlink : c.canUnlink g = true
    · rw [Chain.discard, if_pos hunlink] at hr
      exact Or.inl ((mem_unlink hunlink).mp hr)
    · have hdiscard : c.discard g = c.modify g fun r => { r with discarded := true } := by
        rw [Chain.discard, if_neg hunlink]
      rw [hdiscard, mem_modify] at hr
      obtain ⟨t, htmem, rfl⟩ := hr
      by_cases htg : t.generation = g
      · subst htg
        obtain ⟨hsole, hbase⟩ := hc.sole_of_not_canUnlink htmem hg hunlink
        right
        rw [if_pos rfl]
        refine ⟨fun s hs => ?_, rfl, hbase, rfl, hc.minted t htmem⟩
        rw [hdiscard, mem_modify] at hs
        obtain ⟨u, hu, rfl⟩ := hs
        rw [hsole u hu, if_pos rfl]
      · rw [if_neg htg]
        exact Or.inl ⟨htmem, htg⟩
  have hclosed : g ∉ (table.without g).generations :=
    fun h => (OpenTable.mem_generations_without.mp h).2 rfl
  refine ⟨hc.ascending.discard g, ?_, ?_, ?_, ?_, ?_⟩
  · intro r hr
    rcases hrecord hr with ⟨hr, _⟩ | ⟨_, _, _, _, hlt⟩
    · exact hc.minted r hr
    · exact hlt
  · intro r hr hdiscarded
    rcases hrecord hr with ⟨hmem, hne⟩ | ⟨hsole, hgen, hbase, _, _⟩
    · obtain ⟨hsole, hbase, hnot⟩ := hc.tombstone r hmem hdiscarded
      refine ⟨fun s hs => ?_, hbase, fun h => hnot (OpenTable.mem_generations_without.mp h).1⟩
      rcases hrecord hs with ⟨hs, _⟩ | ⟨hs, _⟩
      · exact hsole s hs
      · exact (hs r hr).symm
    · exact ⟨hsole, hbase, hgen ▸ hclosed⟩
  · intro r hr hopen hbase s hs
    rcases hrecord hr with ⟨hmem, _⟩ | ⟨hsole, _⟩
    · rcases hrecord hs with ⟨hs, _⟩ | ⟨hs, _⟩
      · exact hc.founded r hmem (OpenTable.mem_generations_without.mp hopen).1 hbase s hs
      · exact (hs r hr).symm
    · exact hsole s hs
  · intro r hr invalid' hentry b hbase
    obtain ⟨hentry', hne⟩ := OpenTable.mem_without.mp hentry
    rw [hc.inherited?_discard hg]
    rcases hrecord hr with ⟨hmem, _⟩ | ⟨_, hgen, _⟩
    · exact hc.branched r hmem invalid' hentry' b hbase
    · exact absurd hgen hne
  · intro entry hentry r hr s hs hrcommitted hscommitted hle hsee
    obtain ⟨hr, hrcommitted⟩ := (mem_discard_committed_iff hg).mp ⟨hr, hrcommitted⟩
    obtain ⟨hs, hscommitted⟩ := (mem_discard_committed_iff hg).mp ⟨hs, hscommitted⟩
    exact hc.downward entry (OpenTable.mem_without.mp hentry).1 r hr s hs hrcommitted
      hscommitted hle hsee

/-! ## Trimming -/

/-- What trimming takes a reader to select is the newest record in its sight. -/
theorem selected?_entries (c : Chain α) (reader : Visibility) :
    GcView.selected? reader c.entries =
      (c.newest? fun r => reader.canSee r.generation).map (·.generation) := by
  rw [GcView.selected?, entries, ← List.map_reverse, List.find?_map, Option.map_map]
  rfl

/-- A reader who sees no open record is kept the record it inherits. -/
theorem Coherent.selected?_eq_inherited (hc : c.Coherent next table) {reader : Visibility}
    (hblind : ∀ s ∈ c.records, reader.canSee s.generation = true →
      s.generation ∉ table.generations) {r : Record α}
    (hr : c.inherited? table.generations reader = some r) :
    GcView.selected? reader c.entries = some r.generation := by
  obtain ⟨hmem, hcommitted, hsee, hmax⟩ := hc.ascending.inherited?_eq_some_iff.mp hr
  have hnewest : (c.newest? fun r => reader.canSee r.generation) = some r := by
    refine hc.ascending.newest?_eq_some_iff.mpr ⟨hmem, hsee, fun s hs hssee => ?_⟩
    refine hmax s hs (Record.isCommitted_iff.mpr ⟨?_, hblind s hs hssee⟩) hssee
    rw [Bool.eq_false_iff]
    intro hdiscarded
    rw [(hc.tombstone s hs hdiscarded).1 r hmem] at hcommitted
    rw [(Record.isCommitted_iff.mp hcommitted).1] at hdiscarded
    cases hdiscarded
  rw [selected?_entries, hnewest, Option.map_some]

/-- Trimming keeps the records of open frames. -/
theorem Ascending.mem_trim_of_open (hc : c.Ascending) {view : GcView} {r : Record α}
    (hr : r ∈ c.records) (hopen : r.generation ∈ view.opened) : r ∈ (c.trim view).records := by
  apply hc.mem_trim hr
  simp [GcView.retains, GcView.protects, hopen]

/-- Trimming keeps what every reader inherits. -/
theorem Coherent.mem_trim_of_inherited (hc : c.Coherent next table) (ht : Timely next table)
    {view : GcView} (hreaders : view.readers = table.readers next)
    (hopened : view.opened = table.generations) {reader : Visibility}
    (hreader : reader ∈ table.readers next) {r : Record α}
    (hr : c.inherited? table.generations reader = some r) : r ∈ (c.trim view).records := by
  obtain ⟨hmem, hcommitted, _, _⟩ := hc.ascending.inherited?_eq_some_iff.mp hr
  have hselected (hblind : ∀ s ∈ c.records, reader.canSee s.generation = true →
      s.generation ∉ table.generations) : r ∈ (c.trim view).records := by
    apply hc.ascending.mem_trim hmem
    have hany : view.readers.any
        (fun reader => GcView.selected? reader c.entries == some r.generation) = true :=
      List.any_eq_true.mpr ⟨reader, hreaders ▸ hreader,
        beq_iff_eq.mpr (hc.selected?_eq_inherited hblind hr)⟩
    simp [GcView.retains, hany]
  rcases OpenTable.mem_readers.mp hreader with ⟨⟨g, invalid⟩, hentry, rfl⟩ | rfl
  · have hg : g ∈ table.generations := OpenTable.mem_generations.mpr ⟨invalid, hentry⟩
    cases hmine : c.find? g with
    | none =>
      refine hselected fun s hs hsee hsopen => ?_
      rw [ht.hidden hentry hsopen (find?_eq_none_iff.mp hmine s hs)] at hsee
      cases hsee
    | some mine =>
      -- The frame has its own record, of which the inherited one is the base.
      obtain ⟨hown, rfl⟩ := mem_of_find? hmine
      have hbase : mine.base = some r.generation := by
        cases hb : mine.base with
        | none =>
          rw [hc.founded mine hown hg hb r hmem] at hcommitted
          exact absurd hg (Record.isCommitted_iff.mp hcommitted).2
        | some b =>
          obtain ⟨s, hs, rfl⟩ := hc.branched mine hown invalid hentry b hb
          rw [Option.some.inj (hs.symm.trans hr)]
      apply hc.ascending.mem_trim hmem
      have hany : c.entries.any (fun other =>
          view.opened.contains other.1 && other.2 == some r.generation) = true :=
        List.any_eq_true.mpr ⟨(mine.generation, mine.base), List.mem_map.mpr ⟨mine, hown, rfl⟩, by
          simp only [hopened, hbase, beq_self_eq_true, Bool.and_true]
          exact List.contains_iff_mem.mpr hg⟩
      simp only [GcView.retains, hany, Bool.or_true]
  · exact hselected fun s _ hsee => (Visibility.canSee_snapshot.mp hsee).2

/-- Trimming changes nothing that any reader inherits. -/
theorem Coherent.inherited?_trim (hc : c.Coherent next table) (ht : Timely next table)
    {view : GcView} (hreaders : view.readers = table.readers next)
    (hopened : view.opened = table.generations) {reader : Visibility}
    (hreader : reader ∈ table.readers next) :
    (c.trim view).inherited? table.generations reader = c.inherited? table.generations reader :=
  hc.ascending.newest?_eq_of_subset (hc.ascending.trim view)
    (fun _ hr _ => (hc.ascending.trim_sublist view).subset hr)
    (fun _ hr => hc.mem_trim_of_inherited ht hreaders hopened hreader hr)

/-- Trimming leaves the chain coherent. -/
theorem Coherent.trim (hc : c.Coherent next table) (ht : Timely next table)
    {view : GcView} (hreaders : view.readers = table.readers next)
    (hopened : view.opened = table.generations) : (c.trim view).Coherent next table := by
  have hsub {r : Record α} (hr : r ∈ (c.trim view).records) : r ∈ c.records :=
    (hc.ascending.trim_sublist view).subset hr
  refine ⟨hc.ascending.trim view, fun r hr => hc.minted r (hsub hr), ?_, ?_, ?_, ?_⟩
  · intro r hr hdiscarded
    obtain ⟨hsole, hbase⟩ := hc.tombstone r (hsub hr) hdiscarded
    exact ⟨fun s hs => hsole s (hsub hs), hbase⟩
  · exact fun r hr hopen hbase s hs => hc.founded r (hsub hr) hopen hbase s (hsub hs)
  · intro r hr invalid hentry b hbase
    rw [hc.inherited?_trim ht hreaders hopened
      (OpenTable.mem_readers.mpr (Or.inl ⟨_, hentry, rfl⟩))]
    exact hc.branched r (hsub hr) invalid hentry b hbase
  · exact fun entry hentry r hr s hs => hc.downward entry hentry r (hsub hr) s (hsub hs)

end Chain

/-! ## Storing a value -/

/-- A record after a value was stored into the one of a generation. -/
def Record.stored (g : Generation) (f : α → α) (r : Record α) : Record α :=
  if r.generation = g then { r with value := f r.value } else r

/-- To store a value changes no generation. -/
@[simp] theorem Record.stored_generation (g : Generation) (f : α → α) (r : Record α) :
    (r.stored g f).generation = r.generation := by
  unfold stored
  split <;> rfl

/-- To store a value does not change what a record was branched from. -/
@[simp] theorem Record.stored_base (g : Generation) (f : α → α) (r : Record α) :
    (r.stored g f).base = r.base := by
  unfold stored
  split <;> rfl

/-- To store a value discards no record and restores none. -/
@[simp] theorem Record.stored_discarded (g : Generation) (f : α → α) (r : Record α) :
    (r.stored g f).discarded = r.discarded := by
  unfold stored
  split <;> rfl

/-- To store a value commits no record. -/
@[simp] theorem Record.isCommitted_stored (g : Generation) (f : α → α) (r : Record α)
    (opened : List Generation) : (r.stored g f).isCommitted opened = r.isCommitted opened := by
  simp [isCommitted]

namespace Chain

/-- The chain after a value was stored into the record of a generation. -/
def store (c : Chain α) (g : Generation) (f : α → α) : Chain α :=
  c.modify g fun r => { r with value := f r.value }

/-- To store into a chain is to store into its records, of which only one has the generation. -/
theorem records_store (c : Chain α) (g : Generation) (f : α → α) :
    (c.store g f).records = c.records.map (Record.stored g f) :=
  rfl

/-- The records of a chain are those that there were, with the value stored. -/
theorem mem_store {g : Generation} {f : α → α} {r : Record α} :
    r ∈ (c.store g f).records ↔ ∃ s ∈ c.records, s.stored g f = r := by
  rw [records_store, List.mem_map]

/-- Storing a value changes no choice that does not look at values. -/
theorem newest?_store (c : Chain α) (g : Generation) (f : α → α) {p : Record α → Bool}
    (hp : ∀ r, p (r.stored g f) = p r) :
    (c.store g f).newest? p = (c.newest? p).map (Record.stored g f) := by
  have hsame : p ∘ Record.stored g f = p := funext hp
  rw [newest?, records_store, ← List.map_reverse, List.find?_map, hsame, newest?]

/-- A view inherits the same record, with the value stored. -/
theorem inherited?_store (c : Chain α) (g : Generation) (f : α → α) (opened : List Generation)
    (view : Visibility) :
    (c.store g f).inherited? opened view =
      (c.inherited? opened view).map (Record.stored g f) :=
  c.newest?_store g f fun r => by simp

/-- The same record is found, with the value stored. -/
theorem find?_store (c : Chain α) (g h : Generation) (f : α → α) :
    (c.store g f).find? h = (c.find? h).map (Record.stored g f) := by
  have hsame : (fun r : Record α => r.generation == h) ∘ Record.stored g f =
      fun r => r.generation == h := funext fun r => by simp
  rw [find?, records_store, List.find?_map, hsame, find?]

/-- Storing a value leaves the chain coherent. -/
theorem Coherent.store (hc : c.Coherent next table) (g : Generation) (f : α → α) :
    (c.store g f).Coherent next table := by
  have hasc : (c.store g f).Ascending := hc.ascending.modify g fun _ => rfl
  refine ⟨hasc, ?_, ?_, ?_, ?_, ?_⟩
  · intro r hr
    obtain ⟨s, hs, rfl⟩ := mem_store.mp hr
    simpa using hc.minted s hs
  · intro r hr hdiscarded
    obtain ⟨s, hs, rfl⟩ := mem_store.mp hr
    obtain ⟨hsole, hrest⟩ := hc.tombstone s hs (by simpa using hdiscarded)
    refine ⟨fun t ht => ?_, by simpa using hrest⟩
    obtain ⟨u, hu, rfl⟩ := mem_store.mp ht
    rw [hsole u hu]
  · intro r hr hopen hbase t ht
    obtain ⟨s, hs, rfl⟩ := mem_store.mp hr
    obtain ⟨u, hu, rfl⟩ := mem_store.mp ht
    rw [Record.stored_generation] at hopen
    rw [Record.stored_base] at hbase
    rw [hc.founded s hs hopen hbase u hu]
  · intro r hr invalid hentry b hbase
    obtain ⟨s, hs, rfl⟩ := mem_store.mp hr
    rw [Record.stored_generation] at hentry
    rw [Record.stored_base] at hbase
    obtain ⟨t, ht, rfl⟩ := hc.branched s hs invalid hentry b hbase
    rw [Record.stored_generation, inherited?_store, ht]
    exact ⟨t.stored g f, rfl, Record.stored_generation g f t⟩
  · intro entry hentry r hr s hs hrcommitted hscommitted hle hsee
    obtain ⟨r', hr', rfl⟩ := mem_store.mp hr
    obtain ⟨s', hs', rfl⟩ := mem_store.mp hs
    simp only [Record.isCommitted_stored, Record.stored_generation] at *
    exact hc.downward entry hentry r' hr' s' hs' hrcommitted hscommitted hle hsee

end Chain

end VersionedObjects.Store
