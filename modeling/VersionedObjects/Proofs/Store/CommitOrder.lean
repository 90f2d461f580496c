import VersionedObjects.Proofs.Store.Publication

/-!
# The order of two commits

A frame is up to date when nothing was committed that it is not shown. Of two such frames the first
one to commit publishes its own records, whichever it is. The second one then merges the objects of
which both have a record: its own value, that of the first one, and the newest one before. So the
order makes a difference only as far as the merge of two values does.
-/

namespace VersionedObjects.Store

variable {α : Type}

namespace World

variable {w : World α} {f h : FrameId}

/-! ## Frames that are up to date -/

/-- The frame misses no committed record of an object that it is shown something of. -/
def UpToDate (w : World α) (f : FrameId) : Prop :=
  ∀ o, (w.frame f).view.Shows (w.ledger.closed o) →
    ¬ (w.frame f).view.Misses (w.ledger.closed o)

/-- A frame that was just opened has missed no commit. -/
theorem upToDate_of_opened (hw : w.Tidy) {options : FrameOptions}
    (hopened : (w.perform (.openFrame options)).1 = .opened (.ok f)) :
    (w.step (.openFrame options)).UpToDate f :=
  fun o _ => not_misses_of_opened hw hopened o

/-- As long as it is open, a frame stays up to date while every commit fails. -/
theorem UpToDate.step (hcurrent : w.UpToDate f) (hw : w.Tidy) (hf : f < w.frames.length)
    {call : Call α}
    (hrefused : ∀ attempt ∈ w.commitsIn call, ∃ refusal, outcome attempt = .error refusal)
    (hactive : ((w.step call).frame f).isActive = true) : (w.step call).UpToDate f := by
  have hstep : w.step call = w.after [call] := rfl
  obtain ⟨hview, invalid, hframe, hopen⟩ := entry_of_active_after hw hf (hstep ▸ hactive)
  rw [← hstep] at hview hopen
  have hentry := mem_table_of_mem_after hw (hstep ▸ hopen) (hw.fits f hf).minted
  intro o hshows hmisses
  rw [hview, hframe] at hshows hmisses
  have hovertaken := overtaken_step hw hf hentry hopen o
  have hbefore := hovertaken.shows_iff.mp hshows
  rcases hovertaken.cause hbefore hmisses with hmissed | ⟨v, k, hmem, -, -, event, hok⟩
  · exact hcurrent o (hframe ▸ hbefore) (hframe ▸ hmissed)
  · obtain ⟨refusal, herror⟩ := hrefused (v, k) hmem
    rw [outcome, hok] at herror
    cases herror

/-- While every commit fails, the frames from a given one on that are open are up to date if they
were, or were opened in the meantime. -/
theorem upToDate_after (hw : w.Tidy) {calls : List (Call α)} {first : FrameId}
    (hcurrent : ∀ k, first ≤ k → k < w.frames.length → (w.frame k).isActive = true → w.UpToDate k)
    (hrefused : ∀ attempt ∈ w.commits calls, ∃ refusal, outcome attempt = .error refusal) :
    ∀ k, first ≤ k → k < (w.after calls).frames.length →
      ((w.after calls).frame k).isActive = true → (w.after calls).UpToDate k := by
  induction calls generalizing w with
  | nil => exact hcurrent
  | cons call rest ih =>
    rw [after_cons]
    refine ih (hw.step call) (fun k hfirst hk hactive => ?_) fun attempt hmem =>
      hrefused attempt (List.mem_append_right _ hmem)
    by_cases hold : k < w.frames.length
    · have hupToDate := hcurrent k hfirst hold (active_of_active_step hw hold hactive)
      exact hupToDate.step hw hold
        (fun attempt hmem => hrefused attempt (List.mem_append_left _ hmem)) hactive
    · obtain ⟨options, rfl, hopened⟩ := opened_of_le hw (Nat.le_of_not_lt hold) hk
      exact upToDate_of_opened hw hopened

/-- An open frame that is up to date inherits the newest committed records. -/
theorem UpToDate.newest?_eq (hcurrent : w.UpToDate f) (hw : w.Tidy) {o : ObjectId} {r : Record α}
    (hr : (w.ledger.chain o).inherited? w.ledger.table.generations (w.frame f).view = some r) :
    w.ledger.newest? o = some r := by
  have hc := hw.sound.coherent o
  obtain ⟨hmem, hcommitted, hsee, hmax⟩ := hc.ascending.inherited?_eq_some_iff.mp hr
  have hshows : (w.frame f).view.Shows (w.ledger.closed o) :=
    Chain.shows_closed_iff.mpr (by rw [hr]; exact Option.some_ne_none r)
  refine hc.inherited?_snapshot_eq_some_iff.mpr ⟨hmem, hcommitted, fun s hs hscommitted => ?_⟩
  refine hmax s hs hscommitted ?_
  obtain ⟨hlive, hclosed⟩ := Record.isCommitted_iff.mp hscommitted
  by_contra hhidden
  rw [Bool.not_eq_true] at hhidden
  exact hcurrent o hshows ⟨s, Ledger.mem_closed.mpr ⟨hs, hclosed⟩, hlive, hhidden⟩

/-- The frame was opened, is open and is up to date. -/
structure Ready (w : World α) (f : FrameId) : Prop where
  made : f < w.frames.length
  active : (w.frame f).isActive = true
  upToDate : w.UpToDate f

/-- A frame that is ready commits its own records. -/
theorem Ready.commits (hready : w.Ready f) (hw : w.Tidy) :
    ∃ event, (w.commitActive f).1 = .ok event ∧ event.merged = [] := by
  have hnot (o : ObjectId) :
      ¬ (w.Holds f o ∧ (w.frame f).view.Misses (w.ledger.closed o)) := by
    rcases checkCommit_spec hw hready.made hready.active o with ⟨-, hnot⟩ | ⟨hmissed, hshows, -⟩
    · exact hnot
    · exact absurd hmissed.2 (hready.upToDate o hshows)
  cases hresult : (w.commitActive f).1 with
  | error refusal =>
    obtain ⟨o, -, -, -, hmissed, -⟩ :=
      of_commitActive_error hw hready.made hready.active hresult
    exact absurd hmissed (hnot o)
  | ok event =>
    obtain ⟨-, hmerged⟩ := merged_of_commitActive_ok hw hready.made hready.active hresult
    refine ⟨event, rfl, List.eq_nil_iff_forall_not_mem.mpr fun o hmem => ?_⟩
    exact hnot o ((hmerged o).1.mp hmem)

/-! ## The second of two commits -/

/-- The records of an object with which two frames meet when they commit one after the other: their
own ones, and the newest committed one before. -/
structure Meets (w : World α) (f h : FrameId) (o : ObjectId) (mine base theirs : Record α) :
    Prop where
  mine_eq : (w.object o).chain.find? (w.frame f).generation = some mine
  base_eq : w.selectCommitted? o = some base
  theirs_eq : (w.object o).chain.find? (w.frame h).generation = some theirs

namespace Meets

variable {o : ObjectId} {mine base theirs mine' base' theirs' : Record α}

/-- Two frames meet with each other. -/
theorem symm (hmeets : w.Meets f h o mine base theirs) : w.Meets h f o theirs base mine :=
  ⟨hmeets.theirs_eq, hmeets.base_eq, hmeets.mine_eq⟩

/-- Two frames meet with one record each, and over one. -/
theorem unique (hmeets : w.Meets f h o mine base theirs)
    (hmeets' : w.Meets f h o mine' base' theirs') :
    mine = mine' ∧ base = base' ∧ theirs = theirs' :=
  ⟨Option.some.inj (hmeets.mine_eq.symm.trans hmeets'.mine_eq),
    Option.some.inj (hmeets.base_eq.symm.trans hmeets'.base_eq),
    Option.some.inj (hmeets.theirs_eq.symm.trans hmeets'.theirs_eq)⟩

/-- Frames that meet with records of an object both have one. -/
theorem holds (hmeets : w.Meets f h o mine base theirs) : w.Holds f o ∧ w.Holds h o :=
  ⟨Option.isSome_iff_exists.mpr ⟨mine, hmeets.mine_eq⟩,
    Option.isSome_iff_exists.mpr ⟨theirs, hmeets.theirs_eq⟩⟩

end Meets

/-- Two frames that are ready. -/
structure Beside (w : World α) (f h : FrameId) : Prop where
  tidy : w.Tidy
  first : w.Ready f
  second : w.Ready h
  ne : f ≠ h

namespace Beside

/-- Two frames are ready together in either order. -/
theorem symm (hb : w.Beside f h) : w.Beside h f :=
  ⟨hb.tidy, hb.second, hb.first, hb.ne.symm⟩

/-- The first commit leaves the second frame as it was. -/
theorem frame_eq (hb : w.Beside f h) : (w.commitActive f).2.frame h = w.frame h :=
  frame_commitActive hb.tidy hb.first.made hb.first.active hb.ne.symm

/-- The commit of the first frame has its effects on the ledger. -/
theorem follows (hb : w.Beside f h) :
    Follows (w.commitActive f).2 w (w.commitEffects f) :=
  follows_commitActive hb.tidy hb.first.made hb.first.active

/-- The second frame is still there after the first one's commit. -/
theorem made (hb : w.Beside f h) : h < (w.commitActive f).2.frames.length :=
  (frame_of_keeps hb.follows.keeps hb.second.made).1

/-- The second frame is still open after the first one's commit. -/
theorem active (hb : w.Beside f h) : ((w.commitActive f).2.frame h).isActive = true := by
  rw [hb.frame_eq]
  exact hb.second.active

/-- The first commit does not change how objects are merged. -/
theorem merge_eq (hb : w.Beside f h) (o : ObjectId) :
    ((w.commitActive f).2.object o).merge = (w.object o).merge := by
  obtain ⟨-, -, houtline⟩ := commitActive_spec hb.tidy hb.first.made hb.first.active
  have hids : (w.commitActive f).2.outline.identities = w.outline.identities := by
    rw [houtline]
    rfl
  exact (object_of_identities hids o).2.2

/-- The effects of the first commit link and store no record. -/
theorem effects (hb : w.Beside f h) {effect : Effect α} (heffect : effect ∈ w.commitEffects f) :
    effect.writes? = none ∧ ∀ o g change, effect ≠ .stored o g change := by
  obtain ⟨event, hok, -⟩ := hb.first.commits hb.tidy
  obtain ⟨merges, objects, heffects, -⟩ :=
    of_commitActive_ok hb.tidy hb.first.made hb.first.active hok
  rw [heffects] at heffect
  rcases List.mem_cons.mp heffect with rfl | heffect
  · exact ⟨rfl, nofun⟩
  · obtain ⟨o, -, rfl⟩ := List.mem_map.mp heffect
    exact ⟨rfl, nofun⟩

/-- The second frame has its view and its entry in the open table all along. -/
theorem entry (hb : w.Beside f h) : ∃ invalid,
    (w.frame h).view = .ofFrame (w.frame h).generation invalid ∧
      ((w.frame h).generation, invalid) ∈ w.ledger.table ∧
      ((w.frame h).generation, invalid) ∈ (w.commitActive f).2.ledger.table := by
  obtain ⟨invalid, hview, hentry⟩ := hb.follows.tidy.entry hb.made hb.active
  rw [hb.frame_eq] at hview hentry
  refine ⟨invalid, hview, ?_, hentry⟩
  rw [hb.follows.ledger_eq] at hentry
  exact Ledger.mem_table_of_mem_run hentry (hb.tidy.fits h hb.second.made).minted

/-- The first commit leaves the records of the second frame alone. -/
theorem find?_eq (hb : w.Beside f h) (o : ObjectId) :
    ((w.commitActive f).2.object o).chain.find? ((w.commitActive f).2.frame h).generation =
      (w.object o).chain.find? (w.frame h).generation := by
  obtain ⟨invalid, -, hentry, hopen⟩ := hb.entry
  rw [hb.follows.ledger_eq] at hopen
  have hfind := hb.tidy.sound.find?_run hb.follows.admits hentry hopen (o := o)
    fun effect heffect hwrites => by
      rw [(hb.effects heffect).1] at hwrites
      cases hwrites
  rw [← hb.follows.ledger_eq] at hfind
  rw [hb.frame_eq]
  exact hfind

/-- The second frame keeps its own records through the first commit. -/
theorem holds_iff (hb : w.Beside f h) (o : ObjectId) :
    (w.commitActive f).2.Holds h o ↔ w.Holds h o := by
  rw [Holds, hb.find?_eq, Holds]

/-- The first commit leaves alone what the second frame branched its records from. -/
theorem inherited?_eq (hb : w.Beside f h) (o : ObjectId) :
    ((w.commitActive f).2.ledger.chain o).inherited?
        (w.commitActive f).2.ledger.table.generations (w.frame h).view =
      (w.ledger.chain o).inherited? w.ledger.table.generations (w.frame h).view := by
  obtain ⟨invalid, hview, hentry, hopen⟩ := hb.entry
  rw [hb.follows.ledger_eq] at hopen ⊢
  rw [hview]
  exact hb.tidy.sound.inherited?_run hb.follows.admits
    (Ledger.storesOpen_of_not_stored fun effect heffect => (hb.effects heffect).2) hentry hopen o

/-- After the first commit the second frame is contended exactly for what both have records of. -/
theorem missed_iff (hb : w.Beside f h) (o : ObjectId) :
    let v := (w.commitActive f).2
    v.Holds h o ∧ (v.frame h).view.Misses (v.ledger.closed o) ↔ w.Holds f o ∧ w.Holds h o := by
  obtain ⟨event, hok, -⟩ := hb.first.commits hb.tidy
  obtain ⟨invalid, hview, hentry, hopen⟩ := hb.entry
  rw [hb.follows.ledger_eq] at hopen
  have hovertaken := overtaken_commit hb.tidy hb.first.made hb.first.active hentry hopen o
  rw [← hb.follows.ledger_eq, ← hview] at hovertaken
  have hgen : (w.frame h).generation ≠ (w.frame f).generation := fun heq =>
    hb.ne (hb.tidy.eq_of_generation_eq hb.first.made hb.second.made heq.symm)
  have hchecked := checkCommit_spec hb.follows.tidy hb.made hb.active o
  dsimp only at hchecked ⊢
  rw [hb.frame_eq, hb.holds_iff] at hchecked ⊢
  constructor
  · rintro ⟨hholds, hmisses⟩
    refine ⟨?_, hholds⟩
    rcases hchecked with ⟨-, hnot⟩ | ⟨-, hshows, -⟩
    · exact absurd ⟨hholds, hmisses⟩ hnot
    · have hbefore := hovertaken.shows_iff.mp hshows
      rcases hovertaken.cause hbefore hmisses with hmissed | ⟨-, hfirst, -⟩
      · exact absurd hmissed (hb.second.upToDate o hbefore)
      · exact hfirst
  · rintro ⟨hfirst, hsecond⟩
    exact ⟨hsecond, hovertaken.misses (Or.inr ⟨hgen, hfirst, event, hok⟩)⟩

/-- The newest committed record after the first commit. -/
theorem newest_first (hb : w.Beside f h) (o : ObjectId) :
    (w.commitActive f).2.selectCommitted? o =
      ((w.object o).chain.find? (w.frame f).generation).or (w.selectCommitted? o) := by
  obtain ⟨event, hok, hmerged⟩ := hb.first.commits hb.tidy
  cases hmine : (w.object o).chain.find? (w.frame f).generation with
  | none =>
    rw [Option.none_or]
    refine selectCommitted?_commitActive_of_not_holds hb.tidy hb.first.made hb.first.active hok ?_
    rw [Holds, hmine]
    exact Bool.false_ne_true
  | some mine =>
    rw [Option.some_or]
    refine (selectCommitted?_commitActive hb.tidy hb.first.made hb.first.active hok hmine).1 ?_
    rw [hmerged]
    exact List.not_mem_nil

/-- What the second commit reconciles is what the frames meet with. -/
theorem meets_of_reconciles (hb : w.Beside f h) {o : ObjectId} {mine base newest : Record α}
    (hfirst : w.Holds f o) (hreconciles : (w.commitActive f).2.Reconciles h o mine base newest) :
    w.Meets h f o mine base newest := by
  have hmine := (hb.find?_eq o).symm.trans hreconciles.mine_eq
  have hnewest := (hb.newest_first o).symm.trans hreconciles.newest_eq
  obtain ⟨theirs, htheirs⟩ := Option.isSome_iff_exists.mp hfirst
  rw [htheirs, Option.some_or] at hnewest
  refine ⟨hmine, ?_, htheirs.trans hnewest⟩
  -- The base is what the frame inherits, before and after the first commit.
  obtain ⟨hmem, hgen⟩ := Chain.mem_of_find? hmine
  obtain ⟨invalid, hview, hentry, -⟩ := hb.entry
  obtain ⟨s, hs, hsgen⟩ := (hb.tidy.sound.coherent o).branched mine hmem invalid
    (hgen ▸ hentry) base.generation hreconciles.base_eq
  rw [hgen, ← hview] at hs
  have hafter := (hb.inherited?_eq o).trans hs
  have hasc := (hb.follows.tidy.sound.coherent o).ascending
  have hfound := hasc.find?_eq_some_iff.mpr
    ⟨(hasc.inherited?_eq_some_iff.mp hafter).1, hsgen⟩
  have heq : s = base := Option.some.inj (hfound.symm.trans hreconciles.base_found)
  rw [hb.tidy.selectCommitted?_eq, ← heq]
  exact hb.second.upToDate.newest?_eq hb.tidy hs

/-- Where both frames have a record, they meet, and the second commit reconciles what they meet
with. -/
theorem exists_meets (hb : w.Beside f h) {o : ObjectId} (hfirst : w.Holds f o)
    (hsecond : w.Holds h o) : ∃ mine base theirs, w.Meets h f o mine base theirs ∧
      (w.commitActive f).2.Reconciles h o mine base theirs := by
  have hmissed := (hb.missed_iff o).mpr ⟨hfirst, hsecond⟩
  rcases checkCommit_spec hb.follows.tidy hb.made hb.active o with
    ⟨-, hnot⟩ | ⟨-, -, mine, base, newest, hreconciles, -⟩
  · exact absurd hmissed hnot
  · exact ⟨mine, base, newest, hb.meets_of_reconciles hfirst hreconciles, hreconciles⟩

/-- Where both frames have records of an object, the second commit reconciles its own with the one
that the first has published. -/
theorem reconciles_of_meets (hb : w.Beside f h) {o : ObjectId} {mine base theirs : Record α}
    (hmeets : w.Meets h f o mine base theirs) :
    (w.commitActive f).2.Reconciles h o mine base theirs := by
  obtain ⟨hsecond, hfirst⟩ := hmeets.holds
  obtain ⟨mine', base', theirs', hmeets', hreconciles⟩ := hb.exists_meets hfirst hsecond
  obtain ⟨rfl, rfl, rfl⟩ := hmeets.unique hmeets'
  exact hreconciles

/-- The second commit conflicts if and only if some values that meet cannot be merged. -/
theorem commitActive_conflicts_iff (hb : w.Beside f h) :
    (∃ o typeName g committed, ((w.commitActive f).2.commitActive h).1 =
        .error (.conflict o typeName g committed)) ↔
      ∃ o mine base theirs, w.Meets h f o mine base theirs ∧
        (w.object o).merge mine.value base.value theirs.value = none := by
  constructor
  · rintro ⟨p, typeName, g, committed, hrefused⟩
    obtain ⟨o, mine, base, newest, hmissed, hreconciles, hmerge, -⟩ :=
      of_commitActive_error hb.follows.tidy hb.made hb.active hrefused
    have hfirst := ((hb.missed_iff o).mp hmissed).1
    exact ⟨o, mine, base, newest, hb.meets_of_reconciles hfirst hreconciles,
      hb.merge_eq o ▸ hmerge⟩
  · rintro ⟨o, mine, base, theirs, hmeets, hmerge⟩
    cases hresult : ((w.commitActive f).2.commitActive h).1 with
    | error refusal =>
      obtain ⟨p, -, -, newest, -, -, -, hrefusal⟩ :=
        of_commitActive_error hb.follows.tidy hb.made hb.active hresult
      exact ⟨p, _, _, newest.generation, congrArg Except.error hrefusal⟩
    | ok event =>
      obtain ⟨hsecond, hfirst⟩ := hmeets.holds
      obtain ⟨hmem, hmerges⟩ :=
        (merged_of_commitActive_ok hb.follows.tidy hb.made hb.active hresult).2 o
      have hmerged := hmem.mpr ((hb.missed_iff o).mpr ⟨hfirst, hsecond⟩)
      rw [← hb.merge_eq] at hmerge
      exact absurd hmerge (hmerges mine base theirs hmerged (hb.reconciles_of_meets hmeets))

/-- What readers find after both commits: the merged value where both frames have a record, and the
only new record, if there is one, everywhere else. -/
theorem newest_second (hb : w.Beside f h) {event : CommitEvent}
    (hok : ((w.commitActive f).2.commitActive h).1 = .ok event) (o : ObjectId) :
    let u := ((w.commitActive f).2.commitActive h).2
    (∀ mine base theirs, w.Meets h f o mine base theirs → ∃ r, u.selectCommitted? o = some r ∧
      (w.object o).merge mine.value base.value theirs.value = some r.value) ∧
    (¬ (w.Holds f o ∧ w.Holds h o) → u.selectCommitted? o =
      ((w.object o).chain.find? (w.frame h).generation).or
        (((w.object o).chain.find? (w.frame f).generation).or (w.selectCommitted? o))) := by
  have hv := hb.follows.tidy
  obtain ⟨-, hmerged⟩ := merged_of_commitActive_ok hv hb.made hb.active hok
  have hmem : o ∈ event.merged ↔ w.Holds f o ∧ w.Holds h o :=
    (hmerged o).1.trans (hb.missed_iff o)
  refine ⟨fun mine base theirs hmeets => ?_, fun hnot => ?_⟩
  · obtain ⟨hsecond, hfirst⟩ := hmeets.holds
    have hmine := (hb.find?_eq o).trans hmeets.mine_eq
    obtain ⟨-, hpublished⟩ := selectCommitted?_commitActive hv hb.made hb.active hok hmine
    obtain ⟨r, ⟨mine', base', newest', hreconciles, hmerge, -⟩, -, hr⟩ :=
      hpublished (hmem.mpr ⟨hfirst, hsecond⟩)
    obtain ⟨rfl, rfl, rfl⟩ := (hb.reconciles_of_meets hmeets).unique hreconciles
    exact ⟨r, hr, hb.merge_eq o ▸ hmerge⟩
  · cases hmine : (w.object o).chain.find? (w.frame h).generation with
    | none =>
      rw [Option.none_or, ← hb.newest_first]
      refine selectCommitted?_commitActive_of_not_holds hv hb.made hb.active hok ?_
      rw [hb.holds_iff, Holds, hmine]
      exact Bool.false_ne_true
    | some mine =>
      rw [Option.some_or]
      have hown := (hb.find?_eq o).trans hmine
      obtain ⟨hunmerged, -⟩ := selectCommitted?_commitActive hv hb.made hb.active hok hown
      exact hunmerged fun hmerged => hnot (hmem.mp hmerged)

end Beside

/-! ## Both orders -/

/-- Both frames commit successfully, one after the other. -/
def BothCommit (w : World α) (f h : FrameId) : Prop :=
  ∃ event event', (w.commit f).1 = .ok (.ok event) ∧
    ((w.commit f).2.commit h).1 = .ok (.ok event')

/-- The first frame commits successfully, and after it the second one conflicts. -/
def SecondConflicts (w : World α) (f h : FrameId) : Prop :=
  ∃ event o typeName g committed, (w.commit f).1 = .ok (.ok event) ∧
    ((w.commit f).2.commit h).1 = .ok (.error (.conflict o typeName g committed))

/-- The world after the commits of two frames. -/
def afterBoth (w : World α) (f h : FrameId) : World α :=
  ((w.commit f).2.commit h).2

namespace Beside

/-- The first commit is that of an open frame. -/
theorem commit_first (hb : w.Beside f h) :
    w.commit f = (.ok (w.commitActive f).1, (w.commitActive f).2) :=
  if_pos hb.first.active

/-- The second commit is that of an open frame. -/
theorem commit_second (hb : w.Beside f h) :
    (w.commit f).2.commit h = (.ok ((w.commitActive f).2.commitActive h).1,
      ((w.commitActive f).2.commitActive h).2) := by
  rw [hb.commit_first]
  exact if_pos hb.active

/-- The second commit conflicts exactly if some object of both frames cannot be merged. -/
theorem secondConflicts_iff (hb : w.Beside f h) :
    w.SecondConflicts f h ↔ ∃ o mine base theirs, w.Meets h f o mine base theirs ∧
      (w.object o).merge mine.value base.value theirs.value = none := by
  rw [← hb.commitActive_conflicts_iff]
  obtain ⟨event, hok, -⟩ := hb.first.commits hb.tidy
  rw [SecondConflicts, hb.commit_second, hb.commit_first, hok]
  constructor
  · rintro ⟨-, o, typeName, g, committed, -, hrefused⟩
    exact ⟨o, typeName, g, committed, Except.ok.inj hrefused⟩
  · rintro ⟨o, typeName, g, committed, hrefused⟩
    exact ⟨event, o, typeName, g, committed, rfl, congrArg Except.ok hrefused⟩

/-- Either the second commit conflicts, or both are successful. -/
theorem bothCommit_of_not (hb : w.Beside f h) (hnot : ¬ w.SecondConflicts f h) :
    w.BothCommit f h ∧ ∃ event, ((w.commitActive f).2.commitActive h).1 = .ok event := by
  obtain ⟨event, hok, -⟩ := hb.first.commits hb.tidy
  cases hresult : ((w.commitActive f).2.commitActive h).1 with
  | ok event' =>
    refine ⟨⟨event, event', ?_, ?_⟩, event', rfl⟩
    · rw [hb.commit_first, hok]
    · rw [hb.commit_second, hresult]
  | error refusal =>
    obtain ⟨o, mine, base, newest, hmissed, hreconciles, hmerge, -⟩ :=
      of_commitActive_error hb.follows.tidy hb.made hb.active hresult
    refine absurd (hb.secondConflicts_iff.mpr ⟨o, mine, base, newest, ?_, ?_⟩) hnot
    · exact hb.meets_of_reconciles ((hb.missed_iff o).mp hmissed).1 hreconciles
    · rw [← hb.merge_eq]
      exact hmerge

section

variable {R : α → α → Prop}

/-- The second commit conflicts in both orders, or in neither, if values that meet can be merged
into each other, or neither way. -/
theorem secondConflicts_comm (hb : w.Beside f h)
    (hmerge : ∀ o mine base theirs, w.Meets h f o mine base theirs →
      Option.Rel R ((w.object o).merge mine.value base.value theirs.value)
        ((w.object o).merge theirs.value base.value mine.value)) :
    w.SecondConflicts f h ↔ w.SecondConflicts h f := by
  have hnone {o : ObjectId} {mine base theirs : Record α}
      (hmeets : w.Meets h f o mine base theirs) :
      (w.object o).merge mine.value base.value theirs.value = none ↔
        (w.object o).merge theirs.value base.value mine.value = none := by
    have hrel := hmerge o mine base theirs hmeets
    generalize (w.object o).merge mine.value base.value theirs.value = merged at hrel
    generalize (w.object o).merge theirs.value base.value mine.value = swapped at hrel
    cases hrel with
    | none => rfl
    | some _ => simp
  rw [hb.secondConflicts_iff, hb.symm.secondConflicts_iff]
  constructor
  · rintro ⟨o, mine, base, theirs, hmeets, hfails⟩
    exact ⟨o, theirs, base, mine, hmeets.symm, (hnone hmeets).mp hfails⟩
  · rintro ⟨o, mine, base, theirs, hmeets, hfails⟩
    exact ⟨o, theirs, base, mine, hmeets.symm, (hnone hmeets.symm).mpr hfails⟩

/-- The order of the commits of two frames makes no difference if merging either of two values that
meet into the other one does not. -/
theorem order (hb : w.Beside f h)
    (hmerge : ∀ o mine base theirs, w.Meets h f o mine base theirs →
      Option.Rel R ((w.object o).merge mine.value base.value theirs.value)
        ((w.object o).merge theirs.value base.value mine.value)) :
    (w.BothCommit f h ∧ w.BothCommit h f ∧ ∀ o,
      (w.Holds f o → w.Holds h o → ∃ r s, (w.afterBoth f h).selectCommitted? o = some r ∧
        (w.afterBoth h f).selectCommitted? o = some s ∧ R r.value s.value) ∧
      (¬ (w.Holds f o ∧ w.Holds h o) →
        (w.afterBoth f h).selectCommitted? o = (w.afterBoth h f).selectCommitted? o ∧
        (w.afterBoth f h).selectCommitted? o =
          ((w.object o).chain.find? (w.frame h).generation).or
            (((w.object o).chain.find? (w.frame f).generation).or (w.selectCommitted? o)))) ∨
    w.SecondConflicts f h ∧ w.SecondConflicts h f := by
  have hsame := hb.secondConflicts_comm hmerge
  by_cases hconflicts : w.SecondConflicts f h
  · exact Or.inr ⟨hconflicts, hsame.mp hconflicts⟩
  · obtain ⟨hboth, event, hok⟩ := hb.bothCommit_of_not hconflicts
    obtain ⟨hboth', event', hok'⟩ := hb.symm.bothCommit_of_not (mt hsame.mpr hconflicts)
    refine Or.inl ⟨hboth, hboth', fun o => ?_⟩
    have hnewest := hb.newest_second hok o
    have hnewest' := hb.symm.newest_second hok' o
    rw [afterBoth, afterBoth, hb.commit_second, hb.symm.commit_second]
    refine ⟨fun hfirst hsecond => ?_, fun hnot => ?_⟩
    · obtain ⟨mine, base, theirs, hmeets, -⟩ := hb.exists_meets hfirst hsecond
      obtain ⟨r, hr, hvalue⟩ := hnewest.1 mine base theirs hmeets
      obtain ⟨s, hs, hvalue'⟩ := hnewest'.1 theirs base mine hmeets.symm
      have hrel := hmerge o mine base theirs hmeets
      rw [hvalue, hvalue'] at hrel
      cases hrel with
      | some hrel => exact ⟨r, s, hr, hs, hrel⟩
    · rw [hnewest.2 hnot, hnewest'.2 fun hheld => hnot hheld.symm]
      refine ⟨?_, rfl⟩
      -- At most one of the frames has a record.
      cases hfirst : (w.object o).chain.find? (w.frame f).generation with
      | none => simp only [Option.none_or]
      | some mine =>
        cases hsecond : (w.object o).chain.find? (w.frame h).generation with
        | none => simp only [Option.none_or]
        | some theirs =>
          refine absurd ⟨?_, ?_⟩ hnot
          · exact Option.isSome_iff_exists.mpr ⟨mine, hfirst⟩
          · exact Option.isSome_iff_exists.mpr ⟨theirs, hsecond⟩

end

end Beside

/-- Two frames that are open at the end of a run are ready if every commit failed since the older
one was opened. -/
theorem beside_after {config : Config} {before between : List (Call α)} {options : FrameOptions}
    (hopened : (((start α config).after before).perform (.openFrame options)).1 =
      .opened (.ok f))
    (hrefused : ∀ attempt ∈
      (((start α config).after before).step (.openFrame options)).commits between,
      ∃ refusal, outcome attempt = .error refusal) (hlt : f < h) :
    let w := (start α config).after (before ++ .openFrame options :: between)
    h < w.frames.length → (w.frame f).isActive = true → (w.frame h).isActive = true →
      w.Beside f h := by
  have hbefore := (tidy_start α config).after before
  dsimp only
  rw [after_append, after_cons]
  generalize (start α config).after before = opening at *
  intro hh hfactive hhactive
  obtain ⟨rfl, -, -, -⟩ := of_opened hbefore hopened
  have hv := hbefore.step (.openFrame options)
  have hcurrent : ∀ k, opening.frames.length ≤ k →
      k < (opening.step (.openFrame options)).frames.length →
      ((opening.step (.openFrame options)).frame k).isActive = true →
      (opening.step (.openFrame options)).UpToDate k := by
    intro k hfirst hk _
    obtain ⟨options, heq, hopened⟩ := opened_of_le hbefore hfirst hk
    rw [heq]
    exact upToDate_of_opened hbefore (heq ▸ hopened)
  have hready := upToDate_after hv hcurrent hrefused
  have hf := Nat.lt_trans hlt hh
  exact ⟨hv.after between, ⟨hf, hfactive, hready _ (Nat.le_refl _) hf hfactive⟩,
    ⟨hh, hhactive, hready _ (Nat.le_of_lt hlt) hh hhactive⟩, Nat.ne_of_lt hlt⟩

end World

end VersionedObjects.Store
