import VersionedObjects.Proofs.Store.ClosedRecords
import VersionedObjects.Proofs.Store.History
import VersionedObjects.Proofs.Store.Thinning

/-!
# Linear history

No update is lost: what a commit publishes for an object was branched from, or merged with, the
newest committed record of the object, and becomes the newest one itself. So the closed records of
a chain that nobody trims form one line, each branched from the one before it.
-/

namespace VersionedObjects.Store

variable {α : Type}

/-! ## Lines of records -/

/-- The first record has the base, and every other one was branched from the one before it. -/
def Linear (base : Option Generation) : List (Record α) → Prop
  | [] => True
  | r :: rest => r.base = base ∧ Linear (some r.generation) rest

/-- A line is continued by a record that was branched from its last one. -/
theorem Linear.append {base : Option Generation} {records : List (Record α)}
    (h : Linear base records) {r : Record α}
    (hr : r.base = (records.getLast?.map (·.generation)).or base) :
    Linear base (records ++ [r]) := by
  induction records generalizing base with
  | nil => exact ⟨hr, trivial⟩
  | cons s rest ih =>
    refine ⟨h.1, ih h.2 ?_⟩
    rw [hr, List.getLast?_cons]
    cases rest.getLast? <;> rfl

/-- Values do not matter to a line. -/
theorem Linear.map {base : Option Generation} {records : List (Record α)}
    (h : Linear base records) {f : Record α → Record α} (hbase : ∀ r, (f r).base = r.base)
    (hgen : ∀ r, (f r).generation = r.generation) : Linear base (records.map f) := by
  induction records generalizing base with
  | nil => trivial
  | cons r rest ih =>
    refine ⟨(hbase r).trans h.1, ?_⟩
    rw [hgen]
    exact ih h.2

namespace Ledger

variable {l : Ledger α}

/-- Every effect but trimming keeps the closed records of every object in line. -/
theorem Sound.linear_apply (hl : l.Sound) {effect : Effect α} (h : l.Admits effect)
    (huntrimmed : ∀ o, effect ≠ .trimmed o) {o : ObjectId} (hlinear : Linear none (l.closed o)) :
    Linear none ((l.apply effect).closed o) := by
  rw [hl.closed_apply h]
  unfold closedAfter
  split
  · exact hlinear
  · exact hlinear
  · exact hlinear
  · split
    · exact ⟨rfl, trivial⟩
    · exact hlinear
  · next g merges =>
    cases hr : l.revealed? g merges o with
    | none => rwa [Option.toList_none, List.append_nil]
    | some r =>
      have hpublishes := hl.publishes h hr
      refine hlinear.append ?_
      rw [hpublishes.base_eq, Option.or_none, hpublishes.last_eq]
  · split
    · split
      · next hbase => exact ⟨hbase, trivial⟩
      · exact hlinear
    · exact hlinear
  · next p => exact absurd rfl (huntrimmed p)
  · next p g change =>
    split
    · exact hlinear.map (Record.stored_base g change) (Record.stored_generation g change)
    · exact hlinear

/-- A run of effects without trimming keeps the closed records of every object in line. -/
theorem Sound.linear_run (hl : l.Sound) {effects : List (Effect α)} (hadmits : l.AdmitsAll effects)
    (huntrimmed : ∀ o, .trimmed o ∉ effects) {o : ObjectId} (hlinear : Linear none (l.closed o)) :
    Linear none ((l.run effects).closed o) := by
  induction effects generalizing l with
  | nil => exact hlinear
  | cons effect rest ih =>
    refine ih (hl.apply hadmits.1) hadmits.2
      (fun p hp => huntrimmed p (List.mem_cons_of_mem _ hp))
      (hl.linear_apply hadmits.1 (fun p heq => ?_) hlinear)
    exact huntrimmed p (heq ▸ List.mem_cons_self)

/-- The record that a commit publishes for an object becomes the newest committed one. -/
theorem Sound.newest?_committed (hl : l.Sound) {g : Generation} {merges : List (PendingMerge α)}
    (h : l.Admits (.committed g merges)) {o : ObjectId} {r : Record α}
    (hr : l.revealed? g merges o = some r) :
    (l.apply (.committed g merges)).newest? o = some r := by
  have hpublishes := hl.publishes h hr
  have hclosed := hl.closed_committed h o
  rw [hr, Option.toList_some] at hclosed
  have hmem {s : Record α} := mem_closed (l := l.apply (.committed g merges)) (o := o) (r := s)
  rw [hclosed] at hmem
  obtain ⟨hrmem, hrclosed⟩ := hmem.mp (List.mem_append_right _ (List.mem_singleton_self r))
  rw [newest?, ((hl.apply h).coherent o).inherited?_snapshot_eq_some_iff]
  refine ⟨hrmem, Record.isCommitted_iff.mpr ⟨hpublishes.live, hrclosed⟩, fun s hs hscommitted => ?_⟩
  rcases List.mem_append.mp (hmem.mpr ⟨hs, (Record.isCommitted_iff.mp hscommitted).2⟩) with
    hs | hs
  · exact Nat.le_of_lt (hpublishes.newer s hs)
  · rw [List.mem_singleton.mp hs]

end Ledger

/-- The generation under which a commit made the value of an object visible. -/
def CommitEvent.publishedUnder (event : CommitEvent) (o : ObjectId) : Generation :=
  ((event.merged.zip event.mergedGenerations).lookup o).getD event.generation

/-- The event of a commit names the generations that its merged values took from the clock. -/
theorem lookup_merged (next : Generation) (merges : List (PendingMerge α)) (o : ObjectId) :
    ((merges.map (·.object)).zip (List.range' next merges.length)).lookup o =
      (published? next merges o).map (·.generation) := by
  induction merges generalizing next with
  | nil => rfl
  | cons merge rest ih =>
    rw [List.map_cons, List.length_cons, List.range'_succ, List.zip_cons_cons, List.lookup_cons]
    unfold published?
    by_cases ho : merge.object = o
    · rw [if_pos ho, ho, beq_self_eq_true]
      rfl
    · rw [if_neg ho, beq_false_of_ne (Ne.symm ho)]
      exact ih (next + 1)

namespace World

variable {w : World α}

/-! ## Successful commits -/

/-- A commit that succeeds publishes, under the generations that its event names, and then trims at
most. -/
theorem of_commitActive_ok (hw : w.Tidy) {f : FrameId} (hf : f < w.frames.length)
    (hactive : (w.frame f).isActive = true) {event : CommitEvent}
    (hok : (w.commitActive f).1 = .ok event) :
    ∃ (merges : List (PendingMerge α)) (objects : List ObjectId), w.commitEffects f =
        .committed (w.frame f).generation merges :: objects.map .trimmed ∧
      w.pendingMerges f = .ok merges ∧ event.generation = (w.frame f).generation ∧
      event.merged = merges.map (·.object) ∧
      event.mergedGenerations = List.range' w.ledger.next merges.length := by
  rw [(commitActive_spec hw hf hactive).1] at hok
  unfold commitResult at hok
  split at hok
  · cases hok
  · next merges hpending =>
    obtain rfl := Except.ok.inj hok
    rw [commitEffects, hpending]
    dsimp only
    split
    · exact ⟨merges, (w.frame f).listed, rfl, rfl, rfl, rfl, rfl⟩
    · exact ⟨merges, [], rfl, rfl, rfl, rfl, rfl⟩

/-- A commit that succeeds publishes a record of each object of which its frame has one. That
record has the newest committed one as its base, if there was any, and takes its place. -/
theorem commit_publishes (hw : w.Tidy) {f : FrameId} (hf : f < w.frames.length)
    (hactive : (w.frame f).isActive = true) {event : CommitEvent}
    (hok : (w.commitActive f).1 = .ok event) {o : ObjectId} {mine : Record α}
    (hmine : (w.ledger.chain o).find? (w.frame f).generation = some mine) :
    let v := (w.commitActive f).2
    ∃ r, (v.ledger.chain o).find? (event.publishedUnder o) = some r ∧
      r.generation = event.publishedUnder o ∧
      r.base = (w.ledger.newest? o).map (·.generation) ∧
      (∀ s ∈ w.ledger.closed o, s.generation < r.generation) ∧
      ∀ s ∈ v.ledger.closed o, s ≠ r → s.generation < r.generation := by
  obtain ⟨merges, objects, heffects, hpending, hgen, hmerged, hgens⟩ :=
    of_commitActive_ok hw hf hactive hok
  have hfollows := follows_commitActive hw hf hactive
  have hadmits := admits_committed hw hf hactive hpending
  have hsound := hw.sound.apply hadmits
  obtain ⟨r, hr⟩ : ∃ r, w.ledger.revealed? (w.frame f).generation merges o = some r := by
    rw [← Option.isSome_iff_exists, hadmits.isSome_revealed?, hmine]
    rfl
  have hpublishes := hw.sound.publishes hadmits hr
  have hclosed := hw.sound.closed_committed hadmits o
  have hnewest := hw.sound.newest?_committed hadmits hr
  rw [hr, Option.toList_some] at hclosed
  have hunder : r.generation = event.publishedUnder o := by
    rw [CommitEvent.publishedUnder, hmerged, hgens, lookup_merged, hgen]
    rw [Ledger.revealed?] at hr
    cases hpublished : published? w.ledger.next merges o with
    | none =>
      rw [hpublished, Option.none_or, hmine] at hr
      rw [← Option.some.inj hr]
      exact (Chain.mem_of_find? hmine).2
    | some q =>
      rw [hpublished, Option.some_or] at hr
      rw [← Option.some.inj hr]
      rfl
  -- Trimming, which comes last, keeps what a reader of the present finds.
  obtain ⟨hnext, htable, hthins⟩ := hsound.run_trimmed objects
  have hledger : (w.commitActive f).2.ledger =
      (w.ledger.apply (.committed (w.frame f).generation merges)).run (objects.map .trimmed) := by
    rw [hfollows.ledger_eq, heffects, Ledger.run_cons]
  dsimp only
  rw [hledger]
  have hasc := ((hsound.run (Ledger.admitsAll_trimmed _ objects)).coherent o).ascending
  have hkept := (hthins o).inherited _ (OpenTable.mem_readers.mpr (Or.inr rfl))
  rw [← Ledger.newest?, hnewest, ← htable] at hkept
  rw [← hunder]
  refine ⟨r, hasc.find?_eq_some_iff.mpr
    ⟨(hasc.inherited?_eq_some_iff.mp hkept).1, rfl⟩, rfl, hpublishes.base_eq, hpublishes.newer,
    fun s hs hne => ?_⟩
  obtain ⟨hmem, hnotMem⟩ := Ledger.mem_closed.mp hs
  rw [htable] at hnotMem
  have hs : s ∈ _ := Ledger.mem_closed.mpr ⟨(hthins o).subset s hmem, hnotMem⟩
  rw [hclosed] at hs
  rcases List.mem_append.mp hs with hs | hs
  · exact hpublishes.newer s hs
  · exact absurd (List.mem_singleton.mp hs) hne

/-- A frame branches its record only from a committed one. -/
theorem exists_newest?_of_branched (hw : w.Tidy) {f : FrameId} (hf : f < w.frames.length)
    (hactive : (w.frame f).isActive = true) {o : ObjectId} {mine : Record α}
    (hmine : (w.ledger.chain o).find? (w.frame f).generation = some mine)
    (hbase : mine.base ≠ none) : ∃ newest, w.ledger.newest? o = some newest := by
  obtain ⟨hmem, hgen⟩ := Chain.mem_of_find? hmine
  obtain ⟨invalid, -, hentry⟩ := hw.entry hf hactive
  obtain ⟨b, hb⟩ := Option.ne_none_iff_exists'.mp hbase
  have hc := hw.sound.coherent o
  obtain ⟨s, hs, -⟩ := hc.branched mine hmem invalid (hgen ▸ hentry) b hb
  obtain ⟨hsmem, hcommitted, -⟩ := hc.ascending.inherited?_eq_some_iff.mp hs
  refine Option.ne_none_iff_exists'.mp fun hnone => ?_
  have hhidden := Chain.inherited?_eq_none_iff.mp hnone s hsmem hcommitted
  rw [Visibility.canSee_snapshot.mpr
    ⟨hc.minted s hsmem, (Record.isCommitted_iff.mp hcommitted).2⟩] at hhidden
  cases hhidden

/-! ## Untrimmed runs -/

/-- Noting a write changes no configuration. -/
theorem config_noteWrite (w : World α) (f : FrameId) (o : ObjectId) :
    (w.noteWrite f o).outline.config = w.outline.config := by
  unfold noteWrite
  split <;> rfl

/-- Where chains are trimmed only on request, a commit trims none. -/
theorem trimmed_notMem_commitEffects (hmanual : w.outline.config.gc = .manual) (f : FrameId)
    (o : ObjectId) : .trimmed o ∉ w.commitEffects f := by
  unfold commitEffects
  split
  · simp
  · simp [hmanual]

/-- Where chains are trimmed only on request, a write trims none. -/
theorem trimmed_notMem_writeEffects (hmanual : w.outline.config.gc = .manual) (f : FrameId)
    (o p : ObjectId) (change : α → α) : .trimmed p ∉ w.writeEffects f o change := by
  unfold writeEffects
  split
  · nofun
  · next r v hprepare =>
    have hv : (v.tellWrite f o).outline.config.gc = .manual := by
      have hconfig : v.outline.config = w.outline.config := by
        rw [outline_prepareWrite hprepare, config_noteWrite]
      exact (congrArg Config.gc hconfig).trans hmanual
    simp only [List.mem_append, not_or, List.mem_singleton]
    refine ⟨?_, ?_, nofun⟩
    · unfold linkEffects
      split
      · nofun
      · simp
    · unfold observerEffects
      split
      · nofun
      · split
        · split
          · nofun
          · exact trimmed_notMem_commitEffects hv f p
          · simp
        · nofun

/-- Where chains are trimmed only on request, a call that is no such request trims none. -/
theorem trimmed_notMem_effects (hmanual : w.outline.config.gc = .manual) {call : Call α}
    {o : ObjectId} (hcall : call ≠ .collect o) : .trimmed o ∉ w.effects call := by
  intro h
  obtain ⟨-, horigin⟩ := origin_of_mem_effects h
  generalize heffect : Effect.trimmed o = effect at horigin
  cases horigin with
  | opening | discarding => cases heffect
  | committing _ hmem => exact trimmed_notMem_commitEffects hmanual _ o (heffect ▸ hmem)
  | making typeName merge initial =>
    rw [makingEffect] at heffect
    split at heffect <;> cases heffect
  | writing _ hmem => exact trimmed_notMem_writeEffects hmanual _ _ o _ (heffect ▸ hmem)
  | collecting p =>
    cases heffect
    exact hcall rfl

/-- In a run in which nothing is trimmed, the closed records of every object stay in line. -/
theorem linear_after (hw : w.Tidy) (hmanual : w.outline.config.gc = .manual)
    {calls : List (Call α)} (hcalls : ∀ o, .collect o ∉ calls) {o : ObjectId}
    (hlinear : Linear none (w.ledger.closed o)) :
    Linear none ((w.after calls).ledger.closed o) := by
  induction calls generalizing w with
  | nil => exact hlinear
  | cons call rest ih =>
    have hfollows := follows_step hw call
    refine ih hfollows.tidy ((congrArg Config.gc hfollows.keeps.config).trans hmanual)
      (fun p hp => hcalls p (List.mem_cons_of_mem _ hp)) ?_
    rw [hfollows.ledger_eq]
    refine hw.sound.linear_run hfollows.admits (fun p => ?_) hlinear
    exact trimmed_notMem_effects hmanual fun heq => hcalls p (heq ▸ List.mem_cons_self)

/-- **Linear history.** A commit that succeeds, in whatever order it goes through the objects that
its frame touched, publishes of every object that the frame branched a record of a record whose base
is the one that was the newest committed one just before; the published record is newer than all
others that are committed. Where nothing is trimmed, the closed records of an object are therefore
one line from the first on, each branched from the one before it. -/
theorem linear_history (config : Config) (calls : List (Call α)) :
    (∀ (u : World α) (f : FrameId) (event : CommitEvent),
      (u, f) ∈ (start α config).commits calls → (u.commitActive f).1 = .ok event →
      ∀ (o : ObjectId) (mine : Record α),
        (u.object o).chain.find? (u.frame f).generation = some mine → mine.base ≠ none →
        let v := (u.commitActive f).2
        ∃ newest r, u.selectCommitted? o = some newest ∧
          (v.object o).chain.find? (event.publishedUnder o) = some r ∧
          r.base = some newest.generation ∧ newest.generation < r.generation ∧
          ∀ s ∈ (v.object o).chain.records, (v.manager 0).isOpen s.generation = false → s ≠ r →
            s.generation < r.generation) ∧
    (config.gc = .manual → (∀ o, .collect o ∉ calls) → ∀ o : ObjectId,
      let w := (start α config).after calls
      let closed := (w.object o).chain.records.filter fun r => !(w.manager 0).isOpen r.generation
      closed.Pairwise (fun r s => r.generation < s.generation) ∧ Linear none closed) := by
  have hstart := tidy_start α config
  constructor
  · intro u f event hmem hok o mine hmine hbase
    obtain ⟨hu, hf, hactive⟩ := of_mem_commits hstart hmem
    obtain ⟨newest, hnewest⟩ := exists_newest?_of_branched hu hf hactive hmine hbase
    obtain ⟨r, hfind, -, hr, hlt, hmax⟩ := commit_publishes hu hf hactive hok hmine
    rw [hnewest] at hr
    have hnewest_closed : newest ∈ u.ledger.closed o := by
      obtain ⟨hmem, hcommitted, -⟩ :=
        (hu.sound.coherent o).inherited?_snapshot_eq_some_iff.mp hnewest
      exact Ledger.mem_closed.mpr ⟨hmem, (Record.isCommitted_iff.mp hcommitted).2⟩
    refine ⟨newest, r, (hu.selectCommitted?_eq o).trans hnewest, hfind, hr,
      hlt newest hnewest_closed, fun s hs hclosed hne => hmax s ?_ hne⟩
    refine Ledger.mem_closed.mpr ⟨hs, fun hopen => ?_⟩
    rw [Manager.isOpen_iff.mpr hopen] at hclosed
    cases hclosed
  · intro hmanual hcalls o
    have hempty : (start α config).ledger.closed o = [] := by
      rw [Ledger.closed, Chain.closed, chain_eq_nil (Nat.zero_le o), List.filter_nil]
    have hw := hstart.after calls
    refine ⟨(hw.sound.coherent o).ascending.closed _, linear_after hstart hmanual hcalls ?_⟩
    rw [hempty]
    trivial

/-- A counter adds up the changes made to it. -/
def addChanges (mine base theirs : Nat) : Option Nat :=
  some (mine + theirs - base)

/-- A counter is made and a frame is opened. -/
def firstOpened : List (Call Nat) :=
  [.construct "Counter" addChanges 5, .openFrame {}]

/-- Two frames raise the counter side by side, and the first one commits. -/
def bothRaised : List (Call Nat) :=
  [.writeIn 0 0 (· + 1), .writeIn 1 0 (· + 2), .commit 0]

/-- Only the second frame is left to commit. -/
def secondLeft : List (Call Nat) :=
  firstOpened ++ .openFrame {} :: bothRaised

/-- The second frame commits a merged value, whose record was made from that of the first. -/
theorem linear_history_of_merge :
    let u := (start Nat { gc := .manual }).after secondLeft
    let v := (u.commitActive 1).2
    (∃ newest r, u.selectCommitted? 0 = some newest ∧ (v.object 0).chain.find? 4 = some r ∧
      r.base = some newest.generation ∧ newest.generation < r.generation ∧
        ∀ s ∈ (v.object 0).chain.records, (v.manager 0).isOpen s.generation = false → s ≠ r →
          s.generation < r.generation) ∧
    Linear none (((u.step (.commit 1)).object 0).chain.records.filter fun r =>
      !((u.step (.commit 1)).manager 0).isOpen r.generation) := by
  dsimp only
  have hhistory := linear_history { gc := .manual } (secondLeft ++ [.commit 1])
  rw [after_append] at hhistory
  generalize hu : (start Nat { gc := .manual }).after secondLeft = u at hhistory
  have hmem : (u, 1) ∈ (start Nat { gc := .manual }).commits (secondLeft ++ [.commit 1]) := by
    rw [commits_append_commit (by decide) (by decide), ← hu]
    exact List.mem_append_right _ (List.mem_singleton_self _)
  have hok : (u.commitActive 1).1 =
      .ok { generation := 3, changed := [0], merged := [0], mergedGenerations := [4] } := by
    rw [← hu]
    decide
  have hmine : (u.object 0).chain.find? (u.frame 1).generation =
      some { generation := 3, base := some 1, value := 7 } := by
    rw [← hu]
    decide
  have hcollects : ∀ o, Call.collect o ∉ secondLeft ++ [.commit 1] := by
    simp [secondLeft, firstOpened, bothRaised]
  exact ⟨hhistory.1 u 1 _ hmem hok 0 _ hmine (Option.some_ne_none 1),
    (hhistory.2 rfl hcollects 0).2⟩

end World

end VersionedObjects.Store
