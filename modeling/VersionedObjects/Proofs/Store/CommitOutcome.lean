import VersionedObjects.Proofs.Store.LinearHistory
import VersionedObjects.Proofs.Store.Overtaking

/-!
# The outcome of a commit

The first of two frames that write an object to commit wins. An object is contended for a frame
that has a record of it when another frame has committed a record of it since the frame was opened.
The commit of the frame fails exactly when the values of a contended object cannot be merged, and
otherwise merges the contended objects and no others.
-/

namespace VersionedObjects.Store

variable {α : Type}

namespace World

variable {w : World α}

/-- The frame has a record of the object. -/
def Holds (w : World α) (f : FrameId) (o : ObjectId) : Prop :=
  ((w.object o).chain.find? (w.frame f).generation).isSome = true

instance (w : World α) (f : FrameId) (o : ObjectId) : Decidable (w.Holds f o) :=
  inferInstanceAs (Decidable (_ = true))

/-- Among attempted commits is a successful one of another frame that has a record of the object. -/
def Overwrote (attempts : List (World α × FrameId)) (f : FrameId) (o : ObjectId) : Prop :=
  ∃ v h, (v, h) ∈ attempts ∧ h ≠ f ∧ v.Holds h o ∧ ∃ event, (v.commitActive h).1 = .ok event

/-- The frame has a record of the object, and another frame committed one in the meantime. -/
def Contends (w : World α) (meantime : List (World α × FrameId)) (f : FrameId) (o : ObjectId) :
    Prop :=
  w.Holds f o ∧ Overwrote meantime f o

/-- The records whose values a commit reconciles: the frame's own one of the object, the one it was
branched from, and the newest committed one. -/
structure Reconciles (w : World α) (f : FrameId) (o : ObjectId) (mine base newest : Record α) :
    Prop where
  mine_eq : (w.object o).chain.find? (w.frame f).generation = some mine
  base_eq : mine.base = some base.generation
  base_found : (w.object o).chain.find? base.generation = some base
  newest_eq : w.selectCommitted? o = some newest

/-- Where nobody tried to commit, nobody overwrote anything. -/
theorem not_overwrote_nil {f : FrameId} {o : ObjectId} :
    ¬ Overwrote ([] : List (World α × FrameId)) f o := by
  rintro ⟨v, h, hmem, -⟩
  cases hmem

/-- An object is overwritten in two lists of attempts in a row when it is in one of them. -/
theorem overwrote_append {attempts more : List (World α × FrameId)} {f : FrameId} {o : ObjectId} :
    Overwrote (attempts ++ more) f o ↔ Overwrote attempts f o ∨ Overwrote more f o := by
  constructor
  · rintro ⟨v, h, hmem, hrest⟩
    rcases List.mem_append.mp hmem with hmem | hmem
    · exact Or.inl ⟨v, h, hmem, hrest⟩
    · exact Or.inr ⟨v, h, hmem, hrest⟩
  · rintro (⟨v, h, hmem, hrest⟩ | ⟨v, h, hmem, hrest⟩)
    · exact ⟨v, h, List.mem_append_left _ hmem, hrest⟩
    · exact ⟨v, h, List.mem_append_right _ hmem, hrest⟩

/-- One attempt overwrites an object when it is another frame's, holds the object and succeeds. -/
theorem overwrote_singleton {v : World α} {h f : FrameId} {o : ObjectId} :
    Overwrote [(v, h)] f o ↔ h ≠ f ∧ v.Holds h o ∧ ∃ event, (v.commitActive h).1 = .ok event := by
  constructor
  · rintro ⟨v', h', hmem, hrest⟩
    obtain ⟨rfl, rfl⟩ := Prod.mk.inj (List.mem_singleton.mp hmem)
    exact hrest
  · exact fun hrest => ⟨v, h, List.mem_singleton_self _, hrest⟩

/-! ## Commits of other frames -/

/-- A commit lets an open frame be overtaken if it succeeds and its own frame has a record of the
object. -/
theorem overtaken_commit (hw : w.Tidy) {h : FrameId} (hh : h < w.frames.length)
    (hactive : (w.frame h).isActive = true) {entry : Generation × List Generation}
    (hentry : entry ∈ w.ledger.table)
    (hopen : entry ∈ (w.ledger.run (w.commitEffects h)).table) (o : ObjectId) :
    (Visibility.ofFrame entry.1 entry.2).Overtaken (w.ledger.closed o)
      ((w.ledger.run (w.commitEffects h)).closed o)
      (entry.1 ≠ (w.frame h).generation ∧ w.Holds h o ∧
        ∃ event, (w.commitActive h).1 = .ok event) := by
  have hadmits := admitsAll_commitEffects hw hh hactive
  have hresult := (commitActive_spec hw hh hactive).1
  rw [hresult]
  cases hpending : w.pendingMerges h with
  | error e =>
    have heffects : w.commitEffects h = [.discarded (w.frame h).generation] := by
      rw [commitEffects, hpending]
    refine (hw.sound.overtaken_run hadmits hentry hopen ?_ o).congr (iff_of_false id ?_)
    · rw [heffects]
      simp
    · rintro ⟨-, -, event, hok⟩
      rw [commitResult, hpending] at hok
      cases hok
  | ok merges =>
    obtain ⟨event, hok⟩ : ∃ event, (w.commitActive h).1 = .ok event :=
      ⟨_, by rw [hresult, commitResult, hpending]⟩
    obtain ⟨merges, objects, heffects, -⟩ := of_commitActive_ok hw hh hactive hok
    rw [heffects] at hadmits
    rw [heffects, Ledger.run_cons] at hopen ⊢
    have hnext := hw.sound.timely.minted entry hentry
    have hstay := Ledger.mem_table_of_mem_run hopen
      (Nat.lt_of_lt_of_le hnext (w.ledger.next_le_apply _))
    have hhead := hw.sound.overtaken_apply hadmits.1 hentry hstay o
    have htail := (hw.sound.apply hadmits.1).overtaken_run hadmits.2 hstay hopen
      (fun g merges hmem => by simp at hmem) o
    refine (hhead.trans htail).congr ?_
    rw [or_false, ← hresult]
    constructor
    · rintro ⟨g, other, heq, hsome⟩
      obtain ⟨rfl, -⟩ := Effect.committed.inj heq
      exact ⟨(OpenTable.mem_without.mp hstay).2, hsome, event, hok⟩
    · rintro ⟨-, hsome, -⟩
      exact ⟨_, merges, rfl, hsome⟩

section Life

variable {f : FrameId} {invalid : List Generation}

/-- A call lets an open frame be overtaken if it commits another frame that has a record of the
object. -/
theorem overtaken_step (hw : w.Tidy) (hf : f < w.frames.length) {call : Call α}
    (hentry : ((w.frame f).generation, invalid) ∈ w.ledger.table)
    (hopen : ((w.frame f).generation, invalid) ∈ (w.step call).ledger.table) (o : ObjectId) :
    (Visibility.ofFrame (w.frame f).generation invalid).Overtaken (w.ledger.closed o)
      ((w.step call).ledger.closed o) (Overwrote (w.commitsIn call) f o) := by
  have hfollows := follows_step hw call
  have hadmits := hfollows.admits
  rw [hfollows.ledger_eq] at hopen ⊢
  cases hcommits : w.commitsIn call with
  | nil =>
    have hnone (g : Generation) (merges : List (PendingMerge α)) :
        .committed g merges ∉ w.effects call := fun h => commitsIn_ne_nil h hcommits
    exact (hw.sound.overtaken_run hadmits hentry hopen hnone o).congr
      (iff_of_false id not_overwrote_nil)
  | cons first rest =>
    obtain ⟨v, h⟩ := first
    obtain ⟨hsingle, hh, hactive, before, after, heffects, hv, hbefore, hafter⟩ :=
      attempts_of_mem_commitsIn hw (hcommits ▸ List.mem_cons_self : (v, h) ∈ w.commitsIn call)
    rw [← hcommits, hsingle]
    rw [heffects, Ledger.admitsAll_append, ← hv.ledger_eq, Ledger.admitsAll_append] at hadmits
    rw [heffects, Ledger.run_append, ← hv.ledger_eq, Ledger.run_append] at hopen ⊢
    -- The frame is open before, during and after the commit.
    have hnext := hw.sound.timely.minted _ hentry
    have hnextv : (w.frame f).generation < v.ledger.next := by
      rw [hv.ledger_eq]
      exact Nat.lt_of_lt_of_le hnext (Ledger.next_le_run _ _)
    have hcommitted := Ledger.mem_table_of_mem_run hopen
      (Nat.lt_of_lt_of_le hnextv (Ledger.next_le_run _ _))
    have hentryv := Ledger.mem_table_of_mem_run hcommitted hnextv
    have hfirst := hw.sound.overtaken_run hv.admits hentry (hv.ledger_eq ▸ hentryv)
      (fun g merges hmem => by
        obtain ⟨p, r, heq⟩ := hbefore _ hmem
        cases heq) o
    rw [← hv.ledger_eq] at hfirst
    have hsecond := overtaken_commit hv.tidy hh hactive hentryv hcommitted o
    have hthird := (hv.tidy.sound.run hadmits.2.1).overtaken_run hadmits.2.2 hcommitted hopen
      (fun g merges hmem => by
        obtain ⟨p, g', change, heq⟩ := hafter _ hmem
        cases heq) o
    refine ((hfirst.trans hsecond).trans hthird).congr ?_
    obtain ⟨hfv, hview⟩ := frame_of_keeps hv.keeps hf
    have hgen : (v.frame f).generation = (w.frame f).generation :=
      congrArg Visibility.generation hview
    have hother : (w.frame f).generation ≠ (v.frame h).generation ↔ h ≠ f := by
      rw [← hgen]
      refine not_congr ⟨fun heq => (hv.tidy.eq_of_generation_eq hfv hh heq).symm, ?_⟩
      rintro rfl
      rfl
    rw [false_or, or_false, overwrote_singleton, hother]

/-- In a run, an open frame is overtaken by the commits of the other frames that have a record of
the object. -/
theorem overtaken_after (hw : w.Tidy) (hf : f < w.frames.length) {calls : List (Call α)}
    (hopen : ((w.frame f).generation, invalid) ∈ (w.after calls).ledger.table) (o : ObjectId) :
    (Visibility.ofFrame (w.frame f).generation invalid).Overtaken (w.ledger.closed o)
      ((w.after calls).ledger.closed o) (Overwrote (w.commits calls) f o) := by
  induction calls generalizing w with
  | nil => exact (Visibility.Overtaken.refl _ _).congr (iff_of_false id not_overwrote_nil)
  | cons call rest ih =>
    have hstep := hw.step call
    obtain ⟨hf', hview⟩ := frame_of_keeps (follows_step hw call).keeps hf
    have hgen : ((w.step call).frame f).generation = (w.frame f).generation :=
      congrArg Visibility.generation hview
    have hstay : ((w.frame f).generation, invalid) ∈ (w.step call).ledger.table :=
      mem_table_of_mem_after hstep hopen (hgen ▸ (hstep.fits f hf').minted)
    have hentry : ((w.frame f).generation, invalid) ∈ w.ledger.table :=
      mem_table_of_mem_after hw hopen (hw.fits f hf).minted
    have hrest := ih hstep hf' (hgen.symm ▸ hopen)
    rw [hgen] at hrest
    exact ((overtaken_step hw hf hentry hstay o).trans hrest).congr overwrote_append.symm

/-- From the opening of a frame to one of its commits, it is overtaken by the commits in between. -/
theorem overtaken_until (hw : w.Tidy) (hf : f < w.frames.length) {calls : List (Call α)}
    {earlier later : List (World α × FrameId)} {u : World α} {h : FrameId}
    (hcommits : w.commits calls = earlier ++ (u, h) :: later)
    (hopen : ((w.frame f).generation, invalid) ∈ u.ledger.table) (o : ObjectId) :
    (Visibility.ofFrame (w.frame f).generation invalid).Overtaken (w.ledger.closed o)
      (u.ledger.closed o) (Overwrote earlier f o) := by
  obtain ⟨before, call, after, rfl, hearlier, hmem⟩ := exists_of_commits_eq hw hcommits
  have hv := hw.after before
  obtain ⟨-, -, -, first, last, -, hu, hfirst, -⟩ := attempts_of_mem_commitsIn hv hmem
  obtain ⟨hfv, hview⟩ := frame_of_keeps (hw.keeps_after before) hf
  have hgen : ((w.after before).frame f).generation = (w.frame f).generation :=
    congrArg Visibility.generation hview
  rw [hu.ledger_eq] at hopen ⊢
  have hstay := Ledger.mem_table_of_mem_run hopen (hgen ▸ (hv.fits f hfv).minted)
  have hlast := hv.sound.overtaken_run hu.admits hstay hopen
    (fun g merges hmem => by
      obtain ⟨p, r, heq⟩ := hfirst _ hmem
      cases heq) o
  exact ((overtaken_after hw hf hstay o).trans hlast).congr (by rw [or_false, hearlier])

end Life

/-! ## The commit of the frame itself -/

/-- The three records that a commit reconciles are determined by the frame and the object. -/
theorem Reconciles.unique {f : FrameId} {o : ObjectId}
    {mine base newest mine' base' newest' : Record α}
    (h : w.Reconciles f o mine base newest) (h' : w.Reconciles f o mine' base' newest') :
    mine = mine' ∧ base = base' ∧ newest = newest' := by
  obtain rfl := Option.some.inj (h.mine_eq.symm.trans h'.mine_eq)
  have hgen := Option.some.inj (h.base_eq.symm.trans h'.base_eq)
  have hbase := h.base_found
  rw [hgen, h'.base_found] at hbase
  exact ⟨rfl, (Option.some.inj hbase).symm, Option.some.inj (h.newest_eq.symm.trans h'.newest_eq)⟩

/-- The commit check finds something if the frame has a record of the object and misses a committed
one, and then it depends on the merge. -/
theorem checkCommit_spec (hw : w.Tidy) {f : FrameId} (hf : f < w.frames.length)
    (hactive : (w.frame f).isActive = true) (o : ObjectId) :
    let check := (w.object o).checkCommit (w.frame f).view (w.manager 0).isOpen
    let missed := w.Holds f o ∧ (w.frame f).view.Misses (w.ledger.closed o)
    (check = .clean ∧ ¬ missed) ∨
      missed ∧ (w.frame f).view.Shows (w.ledger.closed o) ∧
        ∃ mine base newest, w.Reconciles f o mine base newest ∧
          check = match (w.object o).merge mine.value base.value newest.value with
            | some value => .merge newest.generation value
            | none => .conflict newest.generation := by
  have hc := hw.sound.coherent o
  rcases checkCommit_cases hw hf hactive o with
    ⟨hcheck, hclean⟩ | ⟨mine, base, newest, hcontended, hcheck⟩
  · refine Or.inl ⟨hcheck, ?_⟩
    rintro ⟨hholds, r, hr, hlive, hsee⟩
    obtain ⟨mine, hmine⟩ := Option.isSome_iff_exists.mp hholds
    obtain ⟨hmem, hgen⟩ := Chain.mem_of_find? hmine
    obtain ⟨hrmem, hclosed⟩ := Ledger.mem_closed.mp hr
    rw [hclean mine hmem hgen r hrmem (Record.isCommitted_iff.mpr ⟨hlive, hclosed⟩)] at hsee
    cases hsee
  · obtain ⟨hlive, hclosed⟩ := Record.isCommitted_iff.mp (hcontended.newest_committed hc)
    have hholds : w.Holds f o := Option.isSome_iff_exists.mpr ⟨mine, hcontended.mine_eq⟩
    have hmisses : (w.frame f).view.Misses (w.ledger.closed o) :=
      ⟨newest, Ledger.mem_closed.mpr ⟨hcontended.mem_newest hc, hclosed⟩, hlive,
        hcontended.unseen⟩
    have hshows : (w.frame f).view.Shows (w.ledger.closed o) :=
      Chain.shows_closed_iff.mpr (by rw [hcontended.inherited]; nofun)
    exact Or.inr ⟨⟨hholds, hmisses⟩, hshows, mine, base, newest,
      ⟨hcontended.mine_eq, hcontended.base_eq, hcontended.find?_base hc,
        (hw.selectCommitted?_eq o).trans hcontended.newest_eq⟩, hcheck⟩

/-- A commit that fails names an object of which the frame has a record, although it misses a
committed one and their values cannot be merged. -/
theorem of_commitActive_error (hw : w.Tidy) {f : FrameId} (hf : f < w.frames.length)
    (hactive : (w.frame f).isActive = true) {refusal : Refusal}
    (hrefused : (w.commitActive f).1 = .error refusal) :
    ∃ o mine base newest, (w.Holds f o ∧ (w.frame f).view.Misses (w.ledger.closed o)) ∧
      w.Reconciles f o mine base newest ∧
      (w.object o).merge mine.value base.value newest.value = none ∧
      refusal = .conflict o (w.object o).typeName (w.frame f).generation newest.generation := by
  rw [(commitActive_spec hw hf hactive).1] at hrefused
  unfold commitResult at hrefused
  split at hrefused
  · next o committed hpending =>
    obtain rfl := Except.error.inj hrefused
    obtain ⟨-, hconflict⟩ := of_checkTouched_error hpending
    rcases checkCommit_spec hw hf hactive o with
      ⟨hclean, -⟩ | ⟨hmissed, -, mine, base, newest, hreconciles, hcheck⟩
    · rw [hclean] at hconflict
      cases hconflict
    · rw [hconflict] at hcheck
      split at hcheck
      · cases hcheck
      · next hmerge =>
        rw [CommitCheck.conflict.inj hcheck]
        exact ⟨o, mine, base, newest, hmissed, hreconciles, hmerge, rfl⟩
  · cases hrefused

/-- A commit that succeeds merges the objects of which the frame has a record and misses a committed
one, each once. -/
theorem merged_of_commitActive_ok (hw : w.Tidy) {f : FrameId} (hf : f < w.frames.length)
    (hactive : (w.frame f).isActive = true) {event : CommitEvent}
    (hok : (w.commitActive f).1 = .ok event) :
    event.merged.Nodup ∧
      ∀ o, (o ∈ event.merged ↔
          w.Holds f o ∧ (w.frame f).view.Misses (w.ledger.closed o)) ∧
        ∀ mine base newest, o ∈ event.merged → w.Reconciles f o mine base newest →
          (w.object o).merge mine.value base.value newest.value ≠ none := by
  obtain ⟨merges, -, -, hpending, -, hmerged, -⟩ := of_commitActive_ok hw hf hactive hok
  have hfits := hw.fits f hf
  obtain ⟨hsub, hclash, hmem⟩ := of_checkTouched_ok hpending
  rw [hmerged]
  refine ⟨hsub.nodup hfits.nodup_listed, fun o => ?_⟩
  have hfound : o ∈ merges.map (·.object) ↔ o ∈ (w.frame f).listed ∧
      ∃ committed value, (w.object o).checkCommit (w.frame f).view (w.manager 0).isOpen =
        .merge committed value := by
    rw [List.mem_map]
    constructor
    · rintro ⟨merge, hmerge, rfl⟩
      obtain ⟨hlisted, hcheck⟩ := (hmem merge).mp hmerge
      exact ⟨hlisted, _, _, hcheck⟩
    · rintro ⟨hlisted, committed, value, hcheck⟩
      exact ⟨⟨o, committed, value⟩, (hmem _).mpr ⟨hlisted, hcheck⟩, rfl⟩
  rw [hfound]
  rcases checkCommit_spec hw hf hactive o with
    ⟨hclean, hnot⟩ | ⟨hmissed, -, mine, base, newest, hreconciles, hcheck⟩
  · simp only [hclean, reduceCtorEq, exists_false, and_false, false_iff]
    exact ⟨hnot, nofun⟩
  · obtain ⟨own, hown⟩ := Option.isSome_iff_exists.mp hmissed.1
    obtain ⟨hownmem, howngen⟩ := Chain.mem_of_find? hown
    have hlisted : o ∈ (w.frame f).listed :=
      Frame.mem_listed.mpr (hfits.touched hactive o own hownmem howngen)
    split at hcheck
    · next value hmerge =>
      refine ⟨iff_of_true ⟨hlisted, _, _, hcheck⟩ hmissed, fun mine' base' newest' _ h' => ?_⟩
      obtain ⟨rfl, rfl, rfl⟩ := hreconciles.unique h'
      rw [hmerge]
      nofun
    · exact absurd hcheck (hclash o hlisted _)

/-- A frame that was just opened misses nothing. -/
theorem not_misses_of_opened (hw : w.Tidy) {options : FrameOptions} {f : FrameId}
    (hopened : (w.perform (.openFrame options)).1 = .opened (.ok f)) (o : ObjectId) :
    let v := w.step (.openFrame options)
    ¬ (v.frame f).view.Misses (v.ledger.closed o) := by
  obtain ⟨-, hledger, -, hframe⟩ := of_opened hw hopened
  dsimp only
  rintro ⟨r, hr, -, hsee⟩
  rw [hledger] at hr
  obtain ⟨hmem, hclosed⟩ := Ledger.mem_closed.mp hr
  have hclosed : r.generation ∉ w.ledger.table.generations := fun h =>
    hclosed (OpenTable.mem_generations_append.mpr (Or.inl h))
  rw [hframe] at hsee
  rw [nextFrame, Visibility.canSee_ofFrame.mpr
    (Or.inr ⟨(hw.sound.coherent o).minted r hmem, hclosed⟩)] at hsee
  cases hsee

/-- At a commit of a frame, the objects contended for it are those of which it has a record and
misses a committed one. -/
theorem contends_iff (hw : w.Tidy) {options : FrameOptions} {f : FrameId}
    (hopened : (w.perform (.openFrame options)).1 = .opened (.ok f)) {calls : List (Call α)}
    {earlier later : List (World α × FrameId)} {u : World α}
    (hcommits : (w.step (.openFrame options)).commits calls = earlier ++ (u, f) :: later)
    (o : ObjectId) :
    u.Contends earlier f o ↔
      u.Holds f o ∧ (u.frame f).view.Misses (u.ledger.closed o) := by
  have hfresh := not_misses_of_opened hw hopened o
  dsimp only at hfresh
  obtain ⟨-, -, hf, -⟩ := of_opened hw hopened
  have hv := hw.step (.openFrame options)
  generalize w.step (.openFrame options) = v at *
  obtain ⟨before, call, after, -, -, hmem⟩ := exists_of_commits_eq hv hcommits
  have hbefore := hv.after before
  obtain ⟨-, hfu, hactive, first, -, -, hu, -, -⟩ := attempts_of_mem_commitsIn hbefore hmem
  obtain ⟨-, hview⟩ := frame_of_keeps ((hv.keeps_after before).trans hu.keeps) hf
  have hgen : (u.frame f).generation = (v.frame f).generation :=
    congrArg Visibility.generation hview
  obtain ⟨invalid, huview, hentry⟩ := hu.tidy.entry hfu hactive
  rw [hgen] at huview hentry
  rw [hview.symm.trans huview] at hfresh
  have hovertaken := overtaken_until hv hf hcommits hentry o
  rw [Contends, huview]
  refine and_congr_right fun hholds => ⟨fun h => hovertaken.misses (Or.inr h), fun hmisses => ?_⟩
  rcases checkCommit_spec hu.tidy hfu hactive o with ⟨-, hnot⟩ | ⟨-, hshows, -⟩
  · exact absurd ⟨hholds, huview ▸ hmisses⟩ hnot
  · exact (hovertaken.cause (hovertaken.shows_iff.mp (huview ▸ hshows)) hmisses).resolve_left hfresh

/-- **The first committer wins.** The commit of an open frame, made anywhere in a run and in
whatever order it goes through the objects, is refused if and only if the values of some object
contended for the frame cannot be merged: that of the frame, that of the record it branched from,
and that of the newest committed record. A refusal names such an object, its type, the generation of
the frame and that of the newest committed record. A commit that succeeds merges the contended
objects, each once. -/
theorem commit_outcome (config : Config) (before between : List (Call α))
    (options : FrameOptions) {f : FrameId}
    (hopened : (((start α config).after before).perform (.openFrame options)).1 =
      .opened (.ok f))
    {earlier later : List (World α × FrameId)} {u : World α}
    (hcommits : (((start α config).after before).step (.openFrame options)).commits between =
      earlier ++ (u, f) :: later) :
    let result := (u.commitActive f).1
    (∀ o, u.Contends earlier f o → ∃ mine base newest, u.Reconciles f o mine base newest) ∧
    ((∃ refusal, result = .error refusal) ↔
      ∃ o mine base newest, u.Contends earlier f o ∧ u.Reconciles f o mine base newest ∧
        (u.object o).merge mine.value base.value newest.value = none) ∧
    (∀ refusal, result = .error refusal →
      ∃ o mine base newest, u.Contends earlier f o ∧ u.Reconciles f o mine base newest ∧
        (u.object o).merge mine.value base.value newest.value = none ∧
        refusal = .conflict o (u.object o).typeName (u.frame f).generation newest.generation) ∧
    ∀ event, result = .ok event →
      event.merged.Nodup ∧ ∀ o, o ∈ event.merged ↔ u.Contends earlier f o := by
  have hstart := (tidy_start α config).after before
  have hcontends := contends_iff hstart hopened hcommits
  obtain ⟨hu, hf, hactive⟩ := of_mem_commits (hstart.step (.openFrame options))
    (hcommits ▸ List.mem_append_right _ List.mem_cons_self)
  simp only [hcontends]
  refine ⟨fun o hmissed => ?_, ⟨?_, ?_⟩, fun refusal => of_commitActive_error hu hf hactive,
    fun event hok => ?_⟩
  · rcases checkCommit_spec hu hf hactive o with ⟨-, hnot⟩ | ⟨-, -, mine, base, newest, h, -⟩
    · exact absurd hmissed hnot
    · exact ⟨mine, base, newest, h⟩
  · rintro ⟨refusal, hrefused⟩
    obtain ⟨o, mine, base, newest, hmissed, hreconciles, hmerge, -⟩ :=
      of_commitActive_error hu hf hactive hrefused
    exact ⟨o, mine, base, newest, hmissed, hreconciles, hmerge⟩
  · rintro ⟨o, mine, base, newest, hmissed, hreconciles, hmerge⟩
    cases hresult : (u.commitActive f).1 with
    | error refusal => exact ⟨refusal, rfl⟩
    | ok event =>
      obtain ⟨-, hmerged⟩ := merged_of_commitActive_ok hu hf hactive hresult
      obtain ⟨hmem, hmerges⟩ := hmerged o
      exact absurd hmerge (hmerges mine base newest (hmem.mpr hmissed) hreconciles)
  · obtain ⟨hnodup, hmerged⟩ := merged_of_commitActive_ok hu hf hactive hok
    exact ⟨hnodup, fun o => (hmerged o).1⟩

/-- For the frame that is second to commit, the counter that the first one raised is contended. -/
theorem commit_outcome_of_merge :
    let v := ((start Nat { gc := .manual }).after firstOpened).step (.openFrame {})
    (v.after bothRaised).Contends (v.commits bothRaised) 1 0 := by
  dsimp only
  have houtcome {earlier later : List (World Nat × FrameId)} {u : World Nat} :=
    @commit_outcome Nat { gc := .manual } firstOpened (bothRaised ++ [.commit 1]) {} 1 rfl
      earlier later u
  generalize hv : ((start Nat { gc := .manual }).after firstOpened).step (.openFrame {}) = v
    at houtcome
  have hcommits : v.commits (bothRaised ++ [.commit 1]) =
      v.commits bothRaised ++ [(v.after bothRaised, 1)] := by
    rw [← hv]
    exact commits_append_commit (by decide) (by decide)
  have hok : ((v.after bothRaised).commitActive 1).1 =
      .ok { generation := 3, changed := [0], merged := [0], mergedGenerations := [4] } := by
    rw [← hv]
    decide
  exact (((houtcome hcommits).2.2.2 _ hok).2 0).mp (List.mem_singleton_self 0)

end World

end VersionedObjects.Store
