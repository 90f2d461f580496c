import VersionedObjects.Proofs.Store.ClosedRecords

/-!
# Chains without the records of a frame

A chain without the record of one generation. Nobody who is not shown the generation can tell the
two chains apart, and whatever other frames and trimming do to a chain, they do to it without that
record. Trimming is the one change that looks at all records of a chain: it keeps the base of the
record of an open frame, which the same frame would select if it had no record.
-/

namespace VersionedObjects.Store

variable {α : Type}

namespace Chain

variable {c d : Chain α} {g h : Generation} {next : Generation} {table : OpenTable}

/-- The chain without the record of a generation. -/
def omitting (c : Chain α) (g : Generation) : Chain α :=
  ⟨c.records.filter (·.generation != g)⟩

/-- Omitting a generation leaves the records of all the others. -/
@[simp] theorem mem_omitting {r : Record α} :
    r ∈ (c.omitting g).records ↔ r ∈ c.records ∧ r.generation ≠ g := by
  simp [omitting]

/-- Nothing is left out where the generation has no record. -/
theorem omitting_eq_self (h : ∀ r ∈ c.records, r.generation ≠ g) : c.omitting g = c := by
  have hfilter : c.records.filter (·.generation != g) = c.records :=
    List.filter_eq_self.mpr fun r hr => bne_iff_ne.mpr (h r hr)
  rw [omitting, hfilter]

/-- A chain stays in ascending order when a generation is omitted. -/
theorem Ascending.omitting (hc : c.Ascending) (g : Generation) : (c.omitting g).Ascending :=
  hc.of_sublist List.filter_sublist

/-- Ascending chains that hold the same records are the same. -/
theorem Ascending.ext (hc : c.Ascending) (hd : d.Ascending)
    (h : ∀ r, r ∈ d.records ↔ r ∈ c.records) : d = c := by
  have hrecords : d.records = c.records := eq_of_ascending hd hc h
  cases c
  cases d
  exact congrArg Chain.mk hrecords

/-- A generation has one record at most, so omitting that of `mine` makes the chain shorter by one.
-/
theorem Ascending.size_omitting (hc : c.Ascending) {mine : Record α} (hmine : mine ∈ c.records) :
    (c.omitting mine.generation).size + 1 = c.size := by
  have hsole : c.records.filter (fun r => !(r.generation != mine.generation)) = [mine] := by
    have hpart : (Chain.mk (c.records.filter fun r =>
        !(r.generation != mine.generation))).Ascending := hc.of_sublist List.filter_sublist
    refine hpart.records_eq_singleton (List.mem_filter.mpr ⟨hmine, by simp⟩) fun s hs => ?_
    obtain ⟨hmem, hgen⟩ := List.mem_filter.mp hs
    exact hc.eq_of_generation_eq hmem hmine (by simpa using hgen)
  have hlength := List.length_eq_length_filter_add (l := c.records)
    (fun r => r.generation != mine.generation)
  rw [hsole] at hlength
  exact hlength.symm

/-! ## Reading -/

/-- Another generation's record is found as before. -/
theorem find?_omitting (c : Chain α) (hne : h ≠ g) : (c.omitting g).find? h = c.find? h := by
  rw [find?, omitting, List.find?_filter, find?]
  refine congrArg (c.records.find? ·) (funext fun r => ?_)
  by_cases hr : r.generation = h
  · simp [hr, hne]
  · simp [hr]

/-- Who never takes the record chooses the same without it. -/
theorem newest?_omitting (c : Chain α) {p : Record α → Bool}
    (hp : ∀ r, p r = true → r.generation ≠ g) : (c.omitting g).newest? p = c.newest? p := by
  rw [newest?, omitting, ← List.filter_reverse, List.find?_filter, newest?]
  refine congrArg (c.records.reverse.find? ·) (funext fun r => ?_)
  cases hr : p r with
  | false => simp
  | true => simp [hp r hr]

/-- Who is not shown the generation selects the same without its record. -/
theorem select?_omitting (c : Chain α) {view : Visibility} (hview : view.canSee g = false) :
    (c.omitting g).select? view = c.select? view := by
  refine c.newest?_omitting fun r hr heq => ?_
  rw [Record.visibleTo, heq, hview, Bool.and_false] at hr
  cases hr

/-- Nobody inherits the record of an open frame. -/
theorem inherited?_omitting (c : Chain α) {opened : List Generation} (hg : g ∈ opened)
    (view : Visibility) :
    (c.omitting g).inherited? opened view = c.inherited? opened view := by
  refine c.newest?_omitting fun r hr heq => ?_
  have hcommitted := (Bool.and_eq_true_iff.mp hr).1
  exact (Record.isCommitted_iff.mp hcommitted).2 (heq ▸ hg)

/-! ## Changes by the frame itself -/

/-- What the frame links is left out. -/
theorem Ascending.omitting_link (hc : c.Ascending) (r : Record α) :
    (c.link r).omitting r.generation = c.omitting r.generation := by
  refine (hc.omitting _).ext ((hc.link r).omitting _) fun s => ?_
  rw [mem_omitting, mem_omitting]
  cases hfind : c.find? r.generation with
  | some mine =>
    have hsame : c.link r = c := by rw [Chain.link, hfind, Option.isSome_some, if_pos rfl]
    rw [hsame]
  | none =>
    rw [mem_link hfind]
    constructor
    · rintro ⟨rfl | hs, hne⟩
      · exact absurd rfl hne
      · exact ⟨hs, hne⟩
    · rintro ⟨hs, hne⟩
      exact ⟨Or.inr hs, hne⟩

/-- To discard a frame is to leave its record out, unless it made the object. -/
theorem Coherent.discard_eq_omitting (hc : c.Coherent next table) (hg : g ∈ table.generations)
    (hbase : ∀ r ∈ c.records, r.generation = g → r.base ≠ none) :
    c.discard g = c.omitting g := by
  cases hmine : c.find? g with
  | none => rw [discard_eq_self hmine, omitting_eq_self (find?_eq_none_iff.mp hmine)]
  | some mine =>
    obtain ⟨hmem, rfl⟩ := mem_of_find? hmine
    obtain ⟨invalid, hentry⟩ := OpenTable.mem_generations.mp hg
    have hunlink := hc.canUnlink_of_base hmem hentry (hbase mine hmem rfl)
    rw [Chain.discard, if_pos hunlink, Chain.unlink, if_pos hunlink, Chain.omitting]

/-! ## Changes by others -/

/-- What another frame links is linked all the same. -/
theorem Ascending.omitting_link_of_ne (hc : c.Ascending) {r : Record α}
    (hne : r.generation ≠ g) (hnew : c.find? r.generation = none) :
    (c.link r).omitting g = (c.omitting g).link r := by
  have hnew' : (c.omitting g).find? r.generation = none := (c.find?_omitting hne).trans hnew
  refine ((hc.omitting g).link r).ext ((hc.link r).omitting g) fun s => ?_
  rw [mem_omitting, mem_link hnew, mem_link hnew', mem_omitting]
  constructor
  · rintro ⟨rfl | hs, hsg⟩
    · exact Or.inl rfl
    · exact Or.inr ⟨hs, hsg⟩
  · rintro (rfl | ⟨hs, hsg⟩)
    · exact ⟨Or.inl rfl, hne⟩
    · exact ⟨Or.inr hs, hsg⟩

/-- A store and an omission commute, also when they are of one generation. -/
theorem omitting_store (c : Chain α) (g h : Generation) (change : α → α) :
    (c.store h change).omitting g = (c.omitting g).store h change := by
  have hsame : (fun r : Record α => r.generation != g) ∘ Record.stored h change =
      fun r => r.generation != g := funext fun r => by simp
  rw [omitting, records_store, List.filter_map, hsame]
  rfl

/-- What is stored into the record is left out with it. -/
theorem omitting_store_self (c : Chain α) (g : Generation) (change : α → α) :
    (c.store g change).omitting g = c.omitting g := by
  have hnone : (c.omitting g).find? g = none :=
    find?_eq_none_iff.mpr fun r hr => (mem_omitting.mp hr).2
  rw [omitting_store, store, modify_eq_self hnone]

/-- A record is published in place of that of another frame all the same. -/
theorem Contended.omitting_publish {invalid invalid' : List Generation}
    {mine base newest mine' base' newest' r : Record α}
    (hcontended : c.Contended next table (.ofFrame h invalid) mine base newest)
    (hcontended' : (c.omitting g).Contended next table (.ofFrame h invalid') mine' base' newest')
    (hc : c.Coherent next table) (hd : (c.omitting g).Coherent next table)
    (hopen : h ∈ table.generations) (hg : g < next) (hnext : next ≤ r.generation) :
    ((c.unlink h).link r).omitting g = ((c.omitting g).unlink h).link r := by
  refine ((hd.ascending.unlink h).link r).ext (((hc.ascending.unlink h).link r).omitting g)
    fun s => ?_
  rw [mem_omitting, hcontended.mem_publish hc hopen hnext,
    hcontended'.mem_publish hd hopen hnext, mem_omitting]
  have hne : r.generation ≠ g := fun heq => Nat.not_lt_of_le hnext (heq ▸ hg)
  constructor
  · rintro ⟨rfl | ⟨hs, hsh⟩, hsg⟩
    · exact Or.inl rfl
    · exact Or.inr ⟨⟨hs, hsg⟩, hsh⟩
  · rintro (rfl | ⟨⟨hs, hsg⟩, hsh⟩)
    · exact ⟨Or.inl rfl, hne⟩
    · exact ⟨Or.inr ⟨hs, hsh⟩, hsg⟩

/-- Another frame is discarded all the same. -/
theorem Coherent.omitting_discard (hc : c.Coherent next table)
    (hd : (c.omitting g).Coherent next table) (hopen : h ∈ table.generations) (hne : h ≠ g) :
    (c.discard h).omitting g = (c.omitting g).discard h := by
  have hfind := c.find?_omitting hne
  cases hmine : c.find? h with
  | none => rw [discard_eq_self hmine, discard_eq_self (hfind.trans hmine)]
  | some mine =>
    obtain ⟨hmem, rfl⟩ := mem_of_find? hmine
    by_cases hbase : mine.base = none
    · -- The frame made the object, so its record is alone.
      have hsole := hc.founded mine hmem hopen hbase
      have hkept : c.omitting g = c := omitting_eq_self fun s hs => by rwa [hsole s hs]
      rw [hkept]
      refine omitting_eq_self fun s hs => ?_
      obtain ⟨t, ht, hgen⟩ := exists_of_mem_discard hs
      rwa [← hgen, hsole t ht]
    · obtain ⟨invalid, hentry⟩ := OpenTable.mem_generations.mp hopen
      have hmem' : mine ∈ (c.omitting g).records := mem_omitting.mpr ⟨hmem, hne⟩
      have hunlink := hc.canUnlink_of_base hmem hentry hbase
      have hunlink' := hd.canUnlink_of_base hmem' hentry hbase
      refine (hd.ascending.discard _).ext ((hc.ascending.discard _).omitting g) fun s => ?_
      rw [mem_omitting, Chain.discard, if_pos hunlink, Chain.discard, if_pos hunlink',
        mem_unlink hunlink, mem_unlink hunlink', mem_omitting]
      exact and_right_comm

/-! ## Trimming -/

/-- A reader who is not shown the generation is taken to select the same without its record. -/
theorem selected?_omitting (c : Chain α) {reader : Visibility} (h : reader.canSee g = false) :
    GcView.selected? reader (c.omitting g).entries = GcView.selected? reader c.entries := by
  rw [selected?_entries, selected?_entries, newest?_omitting]
  rintro r hr rfl
  rw [h] at hr
  cases hr

/-- A frame with a record of its own is taken to select it. -/
theorem Ascending.selected?_own (hc : c.Ascending) {mine : Record α} (hmine : mine ∈ c.records)
    (invalid : List Generation) :
    GcView.selected? (.ofFrame mine.generation invalid) c.entries = some mine.generation := by
  have hnewest : (c.newest? fun r =>
      (Visibility.ofFrame mine.generation invalid).canSee r.generation) = some mine := by
    refine hc.newest?_eq_some_iff.mpr ⟨hmine, ?_, fun s _ hs => ?_⟩
    · exact Visibility.canSee_ofFrame.mpr (Or.inl rfl)
    · exact Visibility.le_of_canSee_ofFrame hs
  rw [selected?_entries, hnewest, Option.map_some]

/-- Something said of the entries of a chain is said of its records' generations and bases. -/
theorem exists_mem_entries_iff {p : Entry → Prop} :
    (∃ entry ∈ c.entries, p entry) ↔ ∃ r ∈ c.records, p (r.generation, r.base) := by
  simp [entries]

/-- A record is retained when it is protected, some reader reads it, or an open frame's record was
copied from it. -/
theorem retains_iff (c : Chain α) (view : GcView) (r : Record α) :
    view.retains c.entries (r.generation, r.base) = true ↔
      view.protects r.generation = true ∨
        (∃ reader ∈ view.readers, GcView.selected? reader c.entries = some r.generation) ∨
        ∃ other ∈ c.records, other.generation ∈ view.opened ∧
          other.base = some r.generation := by
  simp only [GcView.retains, Bool.or_eq_true, List.any_eq_true, Bool.and_eq_true,
    List.contains_iff_mem, beq_iff_eq, exists_mem_entries_iff, or_assoc]

/-- Where something is retained, trimming keeps exactly what the rule retains. -/
theorem Ascending.mem_trim_iff (hc : c.Ascending) {view : GcView} {k : Record α}
    (hk : k ∈ c.records) (hkept : view.retains c.entries (k.generation, k.base) = true)
    {r : Record α} :
    r ∈ (c.trim view).records ↔
      r ∈ c.records ∧ view.retains c.entries (r.generation, r.base) = true := by
  have hmem : k ∈ c.records.filter fun r => view.retains c.entries (r.generation, r.base) :=
    List.mem_filter.mpr ⟨hk, hkept⟩
  rw [records_trim hc.entries]
  dsimp only
  rw [if_neg, List.mem_filter]
  intro hempty
  rw [List.isEmpty_iff.mp hempty] at hmem
  cases hmem

/-- Every reader but the open frame of the generation is taken to select the same without its
record. -/
theorem selected?_omitting_of_reader (ht : Timely next table) {invalid : List Generation}
    (hentry : (g, invalid) ∈ table) {reader : Visibility} (hreader : reader ∈ table.readers next)
    (hother : reader ≠ .ofFrame g invalid) :
    GcView.selected? reader (c.omitting g).entries = GcView.selected? reader c.entries := by
  have hg : g ∈ table.generations := OpenTable.mem_generations.mpr ⟨invalid, hentry⟩
  refine c.selected?_omitting ?_
  rcases OpenTable.mem_readers.mp hreader with ⟨entry, hmem, rfl⟩ | rfl
  · refine ht.hidden hmem hg fun heq => hother ?_
    subst heq
    rw [ht.eq_of_mem hmem hentry]
  · rw [Bool.eq_false_iff]
    exact fun hsee => (Visibility.canSee_snapshot.mp hsee).2 hg

section Trimming

variable {view : GcView} (hc : c.Coherent next table) (hd : (c.omitting g).Coherent next table)
  (ht : Timely next table) (hreaders : view.readers = table.readers next)
  (hopened : view.opened = table.generations)

include hc hd ht

/-- Without its record an open frame is taken to select the base of that record. -/
theorem Coherent.selected?_base {mine : Record α} (hmine : mine ∈ c.records)
    (hgen : mine.generation = g) {invalid : List Generation} (hentry : (g, invalid) ∈ table)
    {b : Generation} (hb : mine.base = some b) :
    GcView.selected? (.ofFrame g invalid) (c.omitting g).entries = some b := by
  have hg : g ∈ table.generations := OpenTable.mem_generations.mpr ⟨invalid, hentry⟩
  obtain ⟨s, hs, rfl⟩ := hc.branched mine hmine invalid (hgen.symm ▸ hentry) b hb
  rw [hgen, ← c.inherited?_omitting hg] at hs
  refine hd.selected?_eq_inherited (fun t hmem hsee hopen => ?_) hs
  rw [ht.hidden hentry hopen (mem_omitting.mp hmem).2] at hsee
  cases hsee

include hreaders hopened

/-- Of the other records the rule retains the same without the record that an open frame
branched. -/
theorem Coherent.retains_omitting_iff {mine : Record α} (hmine : mine ∈ c.records)
    (hgen : mine.generation = g) (hg : g ∈ table.generations) (hbase : mine.base ≠ none)
    {r : Record α} (hne : r.generation ≠ g) :
    view.retains (c.omitting g).entries (r.generation, r.base) = true ↔
      view.retains c.entries (r.generation, r.base) = true := by
  obtain ⟨invalid, hentry⟩ := OpenTable.mem_generations.mp hg
  obtain ⟨b, hb⟩ := Option.ne_none_iff_exists'.mp hbase
  have hinherits := hc.selected?_base hd ht hmine hgen hentry hb
  have howns : GcView.selected? (.ofFrame g invalid) c.entries = some g :=
    hgen ▸ hc.ascending.selected?_own hmine invalid
  rw [retains_iff, retains_iff, hreaders, hopened]
  refine or_congr_right ?_
  constructor
  · rintro (⟨reader, hreader, hselected⟩ | ⟨other, hother, hrest⟩)
    · by_cases hreads : reader = .ofFrame g invalid
      · -- What the frame would select is the base of its record.
        rw [hreads, hinherits] at hselected
        exact Or.inr ⟨mine, hmine, hgen ▸ hg, hb.trans hselected⟩
      · rw [selected?_omitting_of_reader ht hentry hreader hreads] at hselected
        exact Or.inl ⟨reader, hreader, hselected⟩
    · exact Or.inr ⟨other, (mem_omitting.mp hother).1, hrest⟩
  · rintro (⟨reader, hreader, hselected⟩ | ⟨other, hother, hopen, hrest⟩)
    · have hreads : reader ≠ .ofFrame g invalid := by
        rintro rfl
        exact hne (Option.some.inj (hselected.symm.trans howns))
      rw [← selected?_omitting_of_reader ht hentry hreader hreads] at hselected
      exact Or.inl ⟨reader, hreader, hselected⟩
    · by_cases heq : other.generation = g
      · obtain rfl := hc.ascending.eq_of_generation_eq hother hmine (heq.trans hgen.symm)
        refine Or.inl ⟨.ofFrame g invalid, ?_, hinherits.trans (hb.symm.trans hrest)⟩
        exact OpenTable.mem_readers.mpr (Or.inl ⟨_, hentry, rfl⟩)
      · exact Or.inr ⟨other, mem_omitting.mpr ⟨hother, heq⟩, hopen, hrest⟩

/-- A chain is trimmed the same without the record that an open frame branched. -/
theorem Coherent.omitting_trim
    (hbase : ∀ r ∈ c.records, r.generation = g → g ∈ table.generations ∧ r.base ≠ none) :
    (c.trim view).omitting g = (c.omitting g).trim view := by
  cases hmine : c.find? g with
  | none =>
    have hnone := find?_eq_none_iff.mp hmine
    rw [omitting_eq_self hnone, omitting_eq_self fun r hr => hnone r ?_]
    exact (hc.ascending.trim_sublist view).subset hr
  | some mine =>
    obtain ⟨hmem, hgen⟩ := mem_of_find? hmine
    obtain ⟨hg, hbranched⟩ := hbase mine hmem hgen
    obtain ⟨invalid, hentry⟩ := OpenTable.mem_generations.mp hg
    obtain ⟨b, hb⟩ := Option.ne_none_iff_exists'.mp hbranched
    -- Both chains retain something: the frame's record, and the base of that record.
    have hkept : view.retains c.entries (mine.generation, mine.base) = true := by
      refine (c.retains_iff view mine).mpr (Or.inl ?_)
      simp [GcView.protects, hopened, hgen, hg]
    obtain ⟨base, hinherited, hbgen⟩ := hc.branched mine hmem invalid (hgen.symm ▸ hentry) b hb
    rw [hgen, ← c.inherited?_omitting hg] at hinherited
    have hbmem := (hd.ascending.inherited?_eq_some_iff.mp hinherited).1
    have hbkept : view.retains (c.omitting g).entries (base.generation, base.base) = true := by
      refine ((c.omitting g).retains_iff view base).mpr
        (Or.inr (Or.inl ⟨.ofFrame g invalid, ?_, ?_⟩))
      · exact hreaders ▸ OpenTable.mem_readers.mpr (Or.inl ⟨_, hentry, rfl⟩)
      · rw [hc.selected?_base hd ht hmem hgen hentry hb, hbgen]
    refine (hd.ascending.trim view).ext ((hc.ascending.trim view).omitting g) fun r => ?_
    rw [mem_omitting, hc.ascending.mem_trim_iff hmem hkept,
      hd.ascending.mem_trim_iff hbmem hbkept, mem_omitting, and_right_comm]
    refine and_congr_right fun hr => ?_
    rw [hc.retains_omitting_iff hd ht hreaders hopened hmem hgen hg hbranched hr.2]

/-- As many records are dropped without the record that an open frame branched. -/
theorem Coherent.trimCount_omitting
    (hbase : ∀ r ∈ c.records, r.generation = g → g ∈ table.generations ∧ r.base ≠ none) :
    (c.omitting g).trimCount view = c.trimCount view := by
  cases hmine : c.find? g with
  | none => rw [omitting_eq_self (find?_eq_none_iff.mp hmine)]
  | some mine =>
    obtain ⟨hmem, hgen⟩ := mem_of_find? hmine
    have hkept : mine ∈ (c.trim view).records :=
      hc.ascending.mem_trim_of_open hmem (hopened ▸ hgen ▸ (hbase mine hmem hgen).1)
    have hsize := hc.ascending.size_omitting hmem
    have hsize' := (hc.ascending.trim view).size_omitting hkept
    rw [hgen] at hsize hsize'
    rw [hc.omitting_trim hd ht hreaders hopened hbase] at hsize'
    rw [trimCount, trimCount, ← hsize, ← hsize', Nat.add_sub_add_right]

end Trimming

end Chain

end VersionedObjects.Store
