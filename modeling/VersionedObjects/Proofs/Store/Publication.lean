import VersionedObjects.Proofs.Store.CommittedValues
import VersionedObjects.Proofs.Store.TouchedObjects
import Mathlib.Data.List.Induction

/-!
# What a commit publishes

Readers of the present and frames that are opened now find the same record of an object, the newest
committed one. A commit that succeeds replaces it for the objects of which its frame has a record,
and for no others: by that record, or by the merged one where another frame came first. Whatever
else happens, the newest committed record only gives way to a newer one.
-/

namespace VersionedObjects.Store

variable {α : Type}

namespace Ledger

variable {l : Ledger α} {o : ObjectId}

/-- A commit that publishes nothing of an object leaves its newest committed record alone. -/
theorem Sound.newest?_committed_of_none (hl : l.Sound) {g : Generation}
    {merges : List (PendingMerge α)} (h : l.Admits (.committed g merges))
    (hr : l.revealed? g merges o = none) :
    (l.apply (.committed g merges)).newest? o = l.newest? o := by
  rw [(hl.apply h).newest?_eq, hl.closed_committed h, hr, Option.toList_none, List.append_nil,
    ← hl.newest?_eq]

/-- What is linked is of an open generation. -/
theorem Admits.mem_of_links? {effect : Effect α} (h : l.Admits effect) {g : Generation}
    (hlinks : effect.links? = some (o, g)) : g ∈ l.table.generations := by
  cases h with
  | founded _ hopen =>
    obtain ⟨-, rfl⟩ := Prod.mk.inj (Option.some.inj hlinks)
    exact hopen
  | branched hentry =>
    obtain ⟨-, rfl⟩ := Prod.mk.inj (Option.some.inj hlinks)
    exact OpenTable.mem_generations.mpr ⟨_, hentry⟩
  | _ => cases hlinks

/-- An object that is made was without records. -/
theorem Admits.newest?_of_makes? {effect : Effect α} (h : l.Admits effect)
    (hmakes : effect.makes? = some o) : l.newest? o = none := by
  have hnone (hempty : (l.chain o).records = []) : l.newest? o = none := by
    rw [newest?, Chain.inherited?_eq_none_iff, hempty]
    intro r hr
    cases hr
  cases h with
  | founded hempty _ =>
    obtain rfl := Option.some.inj hmakes
    exact hnone hempty
  | created hempty =>
    obtain rfl := Option.some.inj hmakes
    exact hnone hempty
  | _ => cases hmakes

/-- The newest committed record of an object stays of its generation, or a newer one takes its
place. -/
theorem Sound.exists_newest?_apply (hl : l.Sound) {effect : Effect α} (h : l.Admits effect)
    {r : Record α} (hr : l.newest? o = some r) :
    ∃ s, (l.apply effect).newest? o = some s ∧ r.generation ≤ s.generation := by
  obtain ⟨hmem, hcommitted, -⟩ := (hl.coherent o).inherited?_snapshot_eq_some_iff.mp hr
  have hclosed : r.generation ∉ l.table.generations := (Record.isCommitted_iff.mp hcommitted).2
  by_cases hcommits : ∃ g merges, effect = .committed g merges
  · obtain ⟨g, merges, rfl⟩ := hcommits
    cases hrevealed : l.revealed? g merges o with
    | none => exact ⟨r, (hl.newest?_committed_of_none h hrevealed).trans hr, Nat.le_refl _⟩
    | some s =>
      have hnewer := (hl.publishes h hrevealed).newer r (mem_closed.mpr ⟨hmem, hclosed⟩)
      exact ⟨s, hl.newest?_committed h hrevealed, Nat.le_of_lt hnewer⟩
  by_cases hstores : ∃ g change, effect = .stored o g change
  · -- The value may change, the generation does not.
    obtain ⟨g, change, rfl⟩ := hstores
    refine ⟨r.stored g change, ?_, Nat.le_of_eq (r.stored_generation g change).symm⟩
    rw [newest?, Ledger.apply, modifyChain_chain, if_pos rfl, Chain.inherited?_store]
    exact congrArg (Option.map (Record.stored g change)) hr
  · refine ⟨r, (hl.newest?_apply h (fun g merges heq => hcommits ⟨g, merges, heq⟩)
      (fun hmakes => ?_) (fun g hwrites s hs => ?_)).trans hr, Nat.le_refl _⟩
    · rw [h.newest?_of_makes? hmakes] at hr
      cases hr
    · have hlinks : effect.links? = some (o, g) := by
        cases effect with
        | stored p k change =>
          obtain ⟨rfl, rfl⟩ := Prod.mk.inj (Option.some.inj hwrites)
          exact absurd ⟨k, change, rfl⟩ hstores
        | _ => exact hwrites
      obtain rfl := Option.some.inj (hr.symm.trans hs)
      exact fun heq => hclosed (heq ▸ h.mem_of_links? hlinks)

/-- An object that has a newest record keeps one, and its generation never falls. -/
theorem Sound.exists_newest?_run (hl : l.Sound) {effects : List (Effect α)}
    (hadmits : l.AdmitsAll effects) {r : Record α} (hr : l.newest? o = some r) :
    ∃ s, (l.run effects).newest? o = some s ∧ r.generation ≤ s.generation := by
  induction effects generalizing l r with
  | nil => exact ⟨r, hr, Nat.le_refl _⟩
  | cons effect rest ih =>
    obtain ⟨s, hs, hle⟩ := hl.exists_newest?_apply hadmits.1 hr
    obtain ⟨t, ht, hle'⟩ := ih (hl.apply hadmits.1) hadmits.2 hs
    exact ⟨t, ht, Nat.le_trans hle hle'⟩

/-- Trimming keeps the newest committed records. -/
theorem Sound.newest?_run_trimmed (hl : l.Sound) (objects : List ObjectId) :
    (l.run (objects.map .trimmed)).newest? o = l.newest? o := by
  refine hl.newest?_run (admitsAll_trimmed l objects) (fun g merges hmem => ?_)
    (fun effect hmem => ?_) fun effect hmem g hwrites => ?_
  · obtain ⟨p, -, heq⟩ := List.mem_map.mp hmem
    cases heq
  · obtain ⟨p, -, rfl⟩ := List.mem_map.mp hmem
    nofun
  · obtain ⟨p, -, rfl⟩ := List.mem_map.mp hmem
    cases hwrites

end Ledger

namespace World

variable {w : World α}

/-! ## Frames that are opened now -/

/-- A frame that was opened now would read the newest committed record of every object. -/
theorem select?_nextFrame (hw : w.Tidy) (options : FrameOptions) (o : ObjectId) :
    w.select? o (w.nextFrame options).view = w.selectCommitted? o := by
  have hc := hw.sound.coherent o
  have hentry : (w.ledger.next, w.ledger.table.generations) ∈
      w.ledger.table ++ [(w.ledger.next, w.ledger.table.generations)] :=
    List.mem_append_right _ (List.mem_singleton_self _)
  have hfresh : (w.ledger.chain o).find? w.ledger.next = none :=
    Chain.find?_eq_none_iff.mpr fun r hr => Nat.ne_of_lt (hc.minted r hr)
  have hselect : w.select? o (w.nextFrame options).view =
      ((w.ledger.chain o).find? w.ledger.next).or
        ((w.ledger.chain o).inherited? w.ledger.table.generations
          (.ofFrame w.ledger.next w.ledger.table.generations)) := by
    rw [← hc.inherited?_openNext]
    exact hc.openNext.select?_ofFrame hw.sound.timely.openNext hentry
  rw [hselect, hfresh, Option.none_or, hw.sound.inherited?_next, hw.selectCommitted?_eq]

/-- A frame that was just opened reads the newest committed records. -/
theorem select?_of_opened (hw : w.Tidy) {options : FrameOptions} {f : FrameId}
    (hopened : (w.perform (.openFrame options)).1 = .opened (.ok f)) (o : ObjectId) :
    (w.step (.openFrame options)).select? o ((w.step (.openFrame options)).frame f).view =
      w.selectCommitted? o := by
  obtain ⟨-, hledger, -, hframe⟩ := of_opened hw hopened
  have hchain : ((w.step (.openFrame options)).object o).chain = (w.object o).chain :=
    congrFun (congrArg Ledger.chain hledger) o
  rw [← select?_nextFrame hw options, select?, hchain, hframe, ← select?]

/-- A frame that was just opened has no records. -/
theorem not_holds_of_opened (hw : w.Tidy) {options : FrameOptions} {f : FrameId}
    (hopened : (w.perform (.openFrame options)).1 = .opened (.ok f)) (o : ObjectId) :
    ¬ (w.step (.openFrame options)).Holds f o := by
  obtain ⟨-, hledger, -, hframe⟩ := of_opened hw hopened
  have hchain : ((w.step (.openFrame options)).object o).chain = (w.object o).chain :=
    congrFun (congrArg Ledger.chain hledger) o
  have hnone : (w.object o).chain.find? (w.nextFrame options).generation = none :=
    Chain.find?_eq_none_iff.mpr fun r hr => Nat.ne_of_lt ((hw.sound.coherent o).minted r hr)
  rw [Holds, hchain, hframe, hnone]
  exact Bool.false_ne_true

/-! ## What a frame has records of -/

/-- A frame has written an object when it did before the last call or does so by it. -/
theorem wrote_append_singleton {calls : List (Call α)} {call : Call α} {f : FrameId}
    {o : ObjectId} :
    w.Wrote (calls ++ [call]) f o ↔ w.Wrote calls f o ∨ (w.after calls).Writes call f o := by
  induction calls generalizing w with
  | nil =>
    have hnil : w.after [] = w := rfl
    rw [List.nil_append, wrote_cons, hnil, or_iff_left not_wrote_nil, or_iff_right not_wrote_nil]
  | cons first rest ih => rw [List.cons_append, wrote_cons, wrote_cons, ih, or_assoc, after_cons]

/-- Opening a frame is refused and changes nothing, or adds the frame as the last one. -/
theorem step_openFrame_cases (hw : w.Tidy) (options : FrameOptions) :
    w.step (.openFrame options) = w ∨
      (w.perform (.openFrame options)).1 = .opened (.ok w.frames.length) ∧
        (w.step (.openFrame options)).frames = w.frames ++ [w.nextFrame options] := by
  by_cases hfull : w.outline.config.maxOpenFrames ≤ w.ledger.table.length
  · exact Or.inl (congrArg Prod.snd (openFrame_full options hfull))
  · obtain ⟨hresult, -, houtline⟩ := openFrame_spec hw.sole options hfull
    exact Or.inr ⟨congrArg Answer.opened hresult, congrArg Outline.frames houtline⟩

/-- A frame that is new after a call was opened by it. -/
theorem opened_of_le (hw : w.Tidy) {call : Call α} {f : FrameId} (hnew : w.frames.length ≤ f)
    (hf : f < (w.step call).frames.length) :
    ∃ options, call = .openFrame options ∧ (w.perform call).1 = .opened (.ok f) := by
  by_cases hopens : ∃ options, call = .openFrame options
  · obtain ⟨options, rfl⟩ := hopens
    rcases step_openFrame_cases hw options with hsame | ⟨hresult, hframes⟩
    · rw [hsame] at hf
      exact absurd hf (Nat.not_lt_of_le hnew)
    · rw [hframes, List.length_append, List.length_singleton] at hf
      have hlast : f = w.frames.length := Nat.le_antisymm (Nat.le_of_lt_succ hf) hnew
      exact ⟨options, rfl, hlast ▸ hresult⟩
  · have htouches := touches_step hw fun options heq => hopens ⟨options, heq⟩
    rw [htouches.length_eq] at hf
    exact absurd hf (Nat.not_lt_of_le hnew)

/-- A frame that is open after a call was open before it. -/
theorem active_of_active_step (hw : w.Tidy) {call : Call α} {f : FrameId}
    (hf : f < w.frames.length) (hactive : ((w.step call).frame f).isActive = true) :
    (w.frame f).isActive = true := by
  by_cases hopens : ∃ options, call = .openFrame options
  · obtain ⟨options, rfl⟩ := hopens
    rcases step_openFrame_cases hw options with hsame | ⟨-, hframes⟩
    · rwa [hsame] at hactive
    · have hframe : (w.step (.openFrame options)).frame f = w.frame f := by
        rw [frame, hframes, List.getElem?_append_left hf, ← frame]
      rwa [hframe] at hactive
  · exact (touches_step hw fun options heq => hopens ⟨options, heq⟩).active f hf hactive

/-- Who writes in a run has a frame at its end. -/
theorem lt_of_wrote (hw : w.Tidy) {calls : List (Call α)} {f : FrameId} {o : ObjectId}
    (h : w.Wrote calls f o) : f < (w.after calls).frames.length := by
  obtain ⟨before, call, rest, rfl, hwrites⟩ := h
  have hbefore := hw.after before
  have hf := lt_of_writes hbefore hwrites
  rw [after_append]
  exact (frame_of_keeps (hbefore.keeps_after (call :: rest)) hf).1

/-- An open frame has records of exactly the objects that it made or wrote. -/
theorem holds_iff_wrote (config : Config) (calls : List (Call α)) {f : FrameId}
    (hf : f < ((start α config).after calls).frames.length)
    (hactive : (((start α config).after calls).frame f).isActive = true) (o : ObjectId) :
    ((start α config).after calls).Holds f o ↔ (start α config).Wrote calls f o := by
  induction calls using List.reverseRecOn generalizing f with
  | nil => cases hf
  | append_singleton calls call ih =>
    have hw := (tidy_start α config).after calls
    have hstep : (start α config).after (calls ++ [call]) =
        ((start α config).after calls).step call := after_append _ calls [call]
    rw [hstep] at hf hactive ⊢
    rw [wrote_append_singleton]
    by_cases hold : f < ((start α config).after calls).frames.length
    · rw [holds_step hw hold hactive, ih hold (active_of_active_step hw hold hactive)]
    · obtain ⟨options, rfl, hopened⟩ := opened_of_le hw (Nat.le_of_not_lt hold) hf
      refine iff_of_false (not_holds_of_opened hw hopened o) ?_
      rintro (hwrote | hwrites)
      · exact hold (lt_of_wrote (tidy_start α config) hwrote)
      · exact hold (lt_of_writes hw hwrites)

/-! ## Commits -/

/-- A record with the value that a commit of the frame merges for the object, to take the place of
the newest committed record. -/
def Merges (w : World α) (f : FrameId) (o : ObjectId) (r : Record α) : Prop :=
  ∃ mine base newest, w.Reconciles f o mine base newest ∧
    (w.object o).merge mine.value base.value newest.value = some r.value ∧
    r.base = some newest.generation ∧ r.discarded = false

section Commit

variable {f : FrameId} {event : CommitEvent}

/-- After a commit that succeeds, the newest committed record of an object is the one that the
commit publishes, if it does publish one. -/
theorem newest?_commitActive (hw : w.Tidy) (hf : f < w.frames.length)
    (hactive : (w.frame f).isActive = true) {merges : List (PendingMerge α)}
    (hpending : w.pendingMerges f = .ok merges) (o : ObjectId) :
    (w.commitActive f).2.ledger.newest? o =
      (w.ledger.revealed? (w.frame f).generation merges o).or (w.ledger.newest? o) := by
  have hok : (w.commitActive f).1 = w.commitResult f := (commitActive_spec hw hf hactive).1
  rw [commitResult, hpending] at hok
  obtain ⟨others, objects, heffects, hothers, -⟩ := of_commitActive_ok hw hf hactive hok
  obtain rfl := Except.ok.inj (hpending.symm.trans hothers)
  have hadmits := admits_committed hw hf hactive hpending
  rw [(follows_commitActive hw hf hactive).ledger_eq, heffects, Ledger.run_cons,
    (hw.sound.apply hadmits).newest?_run_trimmed]
  cases hrevealed : w.ledger.revealed? (w.frame f).generation merges o with
  | none => rw [Option.none_or, hw.sound.newest?_committed_of_none hadmits hrevealed]
  | some r => rw [Option.some_or, hw.sound.newest?_committed hadmits hrevealed]

/-- The merged record that a commit publishes holds the merged value. -/
theorem merges_of_published? (hw : w.Tidy) (hf : f < w.frames.length)
    (hactive : (w.frame f).isActive = true) {merges : List (PendingMerge α)}
    (hpending : w.pendingMerges f = .ok merges) {o : ObjectId} {r : Record α}
    (hr : published? w.ledger.next merges o = some r) : w.Merges f o r := by
  obtain ⟨⟨merge, hmerge, rfl, hbase, hvalue⟩, -, -, hlive⟩ := of_published? hr
  obtain ⟨-, -, hmem⟩ := of_checkTouched_ok hpending
  obtain ⟨-, hfound⟩ := (hmem merge).mp hmerge
  rcases checkCommit_spec hw hf hactive merge.object with
    ⟨hclean, -⟩ | ⟨-, -, mine, base, newest, hreconciles, hcheck⟩
  · rw [hclean] at hfound
    cases hfound
  · rw [hcheck] at hfound
    split at hfound
    · next value hvalues =>
      obtain ⟨hgen, rfl⟩ := CommitCheck.merge.inj hfound
      exact ⟨mine, base, newest, hreconciles, hvalue ▸ hvalues, hgen ▸ hbase, hlive⟩
    · cases hfound

/-- What a successful commit publishes of an object of which its frame has a record: that record, or
a merged one under a generation that its event names. -/
theorem selectCommitted?_commitActive (hw : w.Tidy) (hf : f < w.frames.length)
    (hactive : (w.frame f).isActive = true) (hok : (w.commitActive f).1 = .ok event)
    {o : ObjectId} {mine : Record α}
    (hmine : (w.object o).chain.find? (w.frame f).generation = some mine) :
    (o ∉ event.merged → (w.commitActive f).2.selectCommitted? o = some mine) ∧
      (o ∈ event.merged → ∃ r, w.Merges f o r ∧
        (o, r.generation) ∈ event.merged.zip event.mergedGenerations ∧
        (w.commitActive f).2.selectCommitted? o = some r) := by
  obtain ⟨merges, -, -, hpending, -, hmerged, hgens⟩ := of_commitActive_ok hw hf hactive hok
  have hmine : (w.ledger.chain o).find? (w.frame f).generation = some mine := hmine
  rw [(follows_commitActive hw hf hactive).tidy.selectCommitted?_eq,
    newest?_commitActive hw hf hactive hpending, Ledger.revealed?, hmine, hmerged, hgens]
  cases hpublished : published? w.ledger.next merges o with
  | none =>
    refine ⟨fun _ => rfl, fun hmem => ?_⟩
    obtain ⟨merge, hmerge, heq⟩ := List.mem_map.mp hmem
    exact absurd heq (published?_eq_none_iff.mp hpublished merge hmerge)
  | some r =>
    obtain ⟨⟨merge, hmerge, hobject, -⟩, -⟩ := of_published? hpublished
    refine ⟨fun hnot => absurd (List.mem_map.mpr ⟨merge, hmerge, hobject⟩) hnot, fun _ =>
      ⟨r, merges_of_published? hw hf hactive hpending hpublished, ?_, rfl⟩⟩
    have hlookup := lookup_merged w.ledger.next merges o
    rw [hpublished] at hlookup
    obtain ⟨before, after, hsplit, -⟩ := List.lookup_eq_some_iff.mp hlookup
    rw [hsplit]
    exact List.mem_append_right _ List.mem_cons_self

/-- A successful commit publishes nothing of the other objects. -/
theorem selectCommitted?_commitActive_of_not_holds (hw : w.Tidy) (hf : f < w.frames.length)
    (hactive : (w.frame f).isActive = true) (hok : (w.commitActive f).1 = .ok event)
    {o : ObjectId} (hholds : ¬ w.Holds f o) :
    (w.commitActive f).2.selectCommitted? o = w.selectCommitted? o := by
  obtain ⟨merges, -, -, hpending, -⟩ := of_commitActive_ok hw hf hactive hok
  have hsome := (admits_committed hw hf hactive hpending).isSome_revealed? o
  have hnone : w.ledger.revealed? (w.frame f).generation merges o = none := by
    rw [← Option.not_isSome_iff_eq_none, hsome]
    exact hholds
  rw [(follows_commitActive hw hf hactive).tidy.selectCommitted?_eq,
    newest?_commitActive hw hf hactive hpending, hnone, Option.none_or, hw.selectCommitted?_eq]

/-- A commit leaves the other frames alone. -/
theorem frame_commitActive (hw : w.Tidy) (hf : f < w.frames.length)
    (hactive : (w.frame f).isActive = true) {h : FrameId} (hne : h ≠ f) :
    (w.commitActive f).2.frame h = w.frame h := by
  have hframes : (w.commitActive f).2.frames = (w.modifyFrame f fun frame =>
      { frame with state := w.stateAfterCommit f }).frames :=
    congrArg Outline.frames (commitActive_spec hw hf hactive).2.2
  rw [frame, hframes, ← frame, frame_modifyFrame hf, if_neg hne]

end Commit

/-- A call that commits a frame successfully is by an open frame. -/
theorem of_committed {f : FrameId} {event : CommitEvent}
    (h : (w.perform (.commit f)).1 = .committed (.ok (.ok event))) :
    f < w.frames.length ∧ (w.frame f).isActive = true ∧ (w.commitActive f).1 = .ok event ∧
      w.step (.commit f) = (w.commitActive f).2 := by
  rw [step]
  unfold perform at h ⊢
  split at h
  swap
  · cases h
  next hknown =>
  dsimp only [act, World.commit] at h
  split at h
  swap
  · cases h
  next hactive =>
  rw [if_pos hknown]
  dsimp only [act, World.commit]
  rw [if_pos hactive]
  exact ⟨hasFrame_iff.mp hknown, hactive, Except.ok.inj (Answer.committed.inj h), rfl⟩

/-- **Publication.** All through a run, a frame that is opened reads of every object what readers of
the present find. After a successful commit, in whatever order it goes through the objects, these
find, of each object that the frame made or wrote, the frame's record if the object is not among the
merged ones, and otherwise a record of the merged value under the generation that the event names;
of any other object, and in any other open frame, readers find what they found before. No call takes
a newest committed record back: at most a newer one takes its place. -/
theorem publication (config : Config) (calls : List (Call α)) :
    let w := (start α config).after calls
    (∀ o options, w.select? o (w.nextFrame options).view = w.selectCommitted? o ∧
      ∀ f, (w.perform (.openFrame options)).1 = .opened (.ok f) →
        (w.step (.openFrame options)).select? o ((w.step (.openFrame options)).frame f).view =
          w.selectCommitted? o) ∧
    (∀ f event, (w.perform (.commit f)).1 = .committed (.ok (.ok event)) →
      let v := w.step (.commit f)
      (∀ o, (start α config).Wrote calls f o →
        ∃ mine, (w.object o).chain.find? (w.frame f).generation = some mine ∧
          (o ∉ event.merged → v.selectCommitted? o = some mine) ∧
          (o ∈ event.merged → ∃ r, w.Merges f o r ∧
            (o, r.generation) ∈ event.merged.zip event.mergedGenerations ∧
            v.selectCommitted? o = some r)) ∧
      (∀ o, ¬ (start α config).Wrote calls f o →
        v.selectCommitted? o = w.selectCommitted? o) ∧
      ∀ h < w.frames.length, h ≠ f → (w.frame h).isActive = true → ∀ o,
        v.select? o (v.frame h).view = w.select? o (w.frame h).view) ∧
    ∀ call o r, w.selectCommitted? o = some r →
      ∃ s, (w.step call).selectCommitted? o = some s ∧ r.generation ≤ s.generation := by
  have hw := (tidy_start α config).after calls
  have hwrote {f : FrameId} := @holds_iff_wrote α config calls f
  dsimp only
  generalize (start α config).after calls = w at hw hwrote
  refine ⟨fun o options => ⟨select?_nextFrame hw options o, fun f hopened =>
    select?_of_opened hw hopened o⟩, fun f event hcommitted => ?_, fun call o r hr => ?_⟩
  · obtain ⟨hf, hactive, hok, hstep⟩ := of_committed hcommitted
    refine ⟨fun o h => ?_, fun o hnot => ?_, fun h hh hne hopen o => ?_⟩
    · obtain ⟨mine, hmine⟩ := Option.isSome_iff_exists.mp ((hwrote hf hactive o).mpr h)
      rw [hstep]
      exact ⟨mine, hmine, selectCommitted?_commitActive hw hf hactive hok hmine⟩
    · rw [hstep]
      exact selectCommitted?_commitActive_of_not_holds hw hf hactive hok
        fun h => hnot ((hwrote hf hactive o).mp h)
    · have hclosing : w.closing? (.commit f) = none := by
        unfold closing?
        split <;> rfl
      refine select?_step hw hh hclosing ?_ fun hwrites => nomatch hwrites.1
      rw [hstep, frame_commitActive hw hf hactive hne]
      exact hopen
  · have hfollows := follows_step hw call
    rw [hw.selectCommitted?_eq] at hr
    rw [hfollows.tidy.selectCommitted?_eq, hfollows.ledger_eq]
    exact hw.sound.exists_newest?_run hfollows.admits hr

/-- Two frames raise a counter side by side; when the second one commits, readers find the merged
record, which is newer than that of the first. -/
theorem publication_of_merge :
    let w := (start Nat { gc := .manual }).after secondLeft
    let v := w.step (.commit 1)
    (w.perform (.commit 1)).1 = .committed (.ok (.ok
        { generation := 3, changed := [0], merged := [0], mergedGenerations := [4] })) ∧
      (start Nat { gc := .manual }).Wrote secondLeft 1 0 ∧
      w.selectCommitted? 0 = some { generation := 2, base := some 1, value := 6 } ∧
      ∃ r, v.selectCommitted? 0 = some r ∧ w.Merges 1 0 r ∧ r.generation = 4 ∧
        2 ≤ r.generation := by
  intro w v
  have hcommitted : (w.perform (.commit 1)).1 = .committed (.ok (.ok
      { generation := 3, changed := [0], merged := [0], mergedGenerations := [4] })) := rfl
  have hwrote : (start Nat { gc := .manual }).Wrote secondLeft 1 0 :=
    ⟨firstOpened ++ [.openFrame {}, .writeIn 0 0 (· + 1)], .writeIn 1 0 (· + 2), [.commit 0], rfl,
      by decide⟩
  have hbefore : w.selectCommitted? 0 = some { generation := 2, base := some 1, value := 6 } := rfl
  obtain ⟨-, hcommits, hnewer⟩ := publication { gc := .manual } secondLeft
  obtain ⟨hown, -⟩ := hcommits 1 _ hcommitted
  obtain ⟨mine, -, -, hmerged⟩ := hown 0 hwrote
  obtain ⟨r, hmerges, hmem, hr⟩ := hmerged (List.mem_singleton_self 0)
  obtain ⟨s, hs, hle⟩ := hnewer (.commit 1) 0 _ hbefore
  obtain rfl := Option.some.inj (hr.symm.trans hs)
  have hgen : (0, r.generation) = (0, 4) := List.mem_singleton.mp hmem
  exact ⟨hcommitted, hwrote, hbefore, r, hr, hmerges, (Prod.mk.inj hgen).2, hle⟩

end World

end VersionedObjects.Store
