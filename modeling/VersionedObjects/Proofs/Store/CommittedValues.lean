import VersionedObjects.Proofs.Store.Collection
import VersionedObjects.Proofs.Store.CommitOutcome
import VersionedObjects.Proofs.Store.Making

/-!
# Committed values

What a commit has published is not changed by any later call: of a generation that is closed, no
record is added to a chain and none gets another value, so without a commit nobody outside of frames
reads anything new. One call can still change what was published while it runs. When the observer of
a frame commits it in the middle of a write, the value is stored afterwards, into the frame's own
record, unless the commit has merged that object.
-/

namespace VersionedObjects.Store

variable {α : Type}

namespace Ledger

variable {l : Ledger α} {o : ObjectId}

/-! ## Records of closed generations -/

/-- A generation of the past that is closed stays closed. -/
theorem notMem_generations_apply {effect : Effect α} {g : Generation} (hpast : g < l.next)
    (hclosed : g ∉ l.table.generations) : g ∉ (l.apply effect).table.generations := by
  intro hopen
  obtain ⟨invalid, hentry⟩ := OpenTable.mem_generations.mp hopen
  exact hclosed (OpenTable.mem_generations.mpr ⟨invalid, mem_table_of_mem_apply hentry hpast⟩)

/-- Of a closed generation no record is added or changed, unless a value is stored into it. -/
theorem Sound.mem_chain_of_mem_apply (hl : l.Sound) {effect : Effect α} (h : l.Admits effect)
    {r : Record α} (hpast : r.generation < l.next)
    (hclosed : r.generation ∉ l.table.generations)
    (hwrites : effect.writes? ≠ some (o, r.generation))
    (hr : r ∈ ((l.apply effect).chain o).records) : r ∈ (l.chain o).records := by
  have hkept : r ∈ (l.apply effect).closed o :=
    mem_closed.mpr ⟨hr, notMem_generations_apply hpast hclosed⟩
  rw [hl.closed_apply h] at hkept
  suffices hsuffices : r ∈ l.closed o from (mem_closed.mp hsuffices).1
  cases effect with
  | opened | founded | branched => exact hkept
  | created p value =>
    dsimp only [closedAfter] at hkept
    split at hkept
    · rw [List.mem_singleton.mp hkept] at hpast
      exact absurd hpast (Nat.lt_irrefl _)
    · exact hkept
  | committed g merges =>
    rcases List.mem_append.mp hkept with hold | hnew
    · exact hold
    · have hrevealed := hl.publishes h (Option.mem_toList.mp hnew)
      rcases hrevealed.fresh with rfl | hle
      · exact absurd h.mem_of_committed hclosed
      · exact absurd hpast (Nat.not_lt_of_le hle)
  | discarded g =>
    dsimp only [closedAfter] at hkept
    split at hkept
    · next mine hmine =>
      split at hkept
      · cases h with
        | discarded hopen =>
          rw [List.mem_singleton.mp hkept] at hclosed
          exact absurd ((Chain.mem_of_find? hmine).2 ▸ hopen) hclosed
      · exact hkept
    · exact hkept
  | trimmed p =>
    dsimp only [closedAfter] at hkept
    split at hkept
    · obtain ⟨hmem, -⟩ := Chain.mem_closed.mp hkept
      exact mem_closed.mpr ⟨((hl.coherent o).ascending.trim_sublist _).subset hmem, hclosed⟩
    · exact hkept
  | stored p g change =>
    dsimp only [closedAfter] at hkept
    split at hkept
    · next heq =>
      obtain ⟨s, hs, rfl⟩ := List.mem_map.mp hkept
      rw [Record.stored_generation] at hwrites
      have hne : s.generation ≠ g := by
        rintro rfl
        exact hwrites (heq ▸ rfl)
      rwa [Record.stored, if_neg hne]
    · exact hkept

/-- A record of a closed generation that nobody has written was there before the run with the same
value. -/
theorem Sound.mem_chain_of_mem_run (hl : l.Sound) {effects : List (Effect α)}
    (hadmits : l.AdmitsAll effects) {r : Record α} (hpast : r.generation < l.next)
    (hclosed : r.generation ∉ l.table.generations)
    (hwrites : ∀ effect ∈ effects, effect.writes? ≠ some (o, r.generation))
    (hr : r ∈ ((l.run effects).chain o).records) : r ∈ (l.chain o).records := by
  induction effects generalizing l with
  | nil => exact hr
  | cons effect rest ih =>
    have hrest := ih (hl.apply hadmits.1) hadmits.2
      (Nat.lt_of_lt_of_le hpast (l.next_le_apply effect)) (notMem_generations_apply hpast hclosed)
      (fun other hother => hwrites other (List.mem_cons_of_mem _ hother)) hr
    exact hl.mem_chain_of_mem_apply hadmits.1 hpast hclosed (hwrites effect List.mem_cons_self)
      hrest

/-! ## The newest committed record -/

/-- Only a commit changes the newest committed record of an object that was made, as long as no
value is stored into that record. -/
theorem Sound.newest?_apply (hl : l.Sound) {effect : Effect α} (h : l.Admits effect)
    (hcommits : ∀ g merges, effect ≠ .committed g merges)
    (hmakes : effect.makes? ≠ some o)
    (hstores : ∀ g, effect.writes? = some (o, g) → ∀ r, l.newest? o = some r → r.generation ≠ g) :
    (l.apply effect).newest? o = l.newest? o := by
  by_cases htrims : effect = .trimmed o
  · subst htrims
    exact ((Thins.refl l).trimmed hl o).newest?_eq o
  rw [(hl.apply h).newest?_eq, hl.closed_apply h, hl.newest?_eq]
  cases effect with
  | opened | founded | branched => rfl
  | created p value =>
    have hne : o ≠ p := fun heq => hmakes (heq ▸ rfl)
    rw [closedAfter, if_neg hne]
  | committed g merges => exact absurd rfl (hcommits g merges)
  | discarded g =>
    dsimp only [closedAfter]
    cases hmine : (l.chain o).find? g with
    | none => rfl
    | some mine =>
      dsimp only
      split
      · next hbase =>
        -- The frame made the object, so nothing of it was committed.
        obtain ⟨hmem, hgen⟩ := Chain.mem_of_find? hmine
        cases h with
        | discarded hopen =>
          rw [(hl.closed_of_founded hmem (hgen.symm ▸ hopen) hbase).2]
          rfl
      · rfl
  | trimmed p =>
    have hne : o ≠ p := fun heq => htrims (heq ▸ rfl)
    rw [closedAfter, if_neg hne]
  | stored p g change =>
    rw [closedAfter]
    split
    · next heq =>
      rw [← List.map_reverse, List.find?_map]
      have hlive : (fun r : Record α => !r.discarded) ∘ Record.stored g change =
          fun r => !r.discarded := by
        funext r
        rw [Function.comp_apply, Record.stored_discarded]
      rw [hlive, ← hl.newest?_eq]
      cases hnewest : l.newest? o with
      | none => rfl
      | some r =>
        have hne := hstores g (heq ▸ rfl) r hnewest
        rw [Option.map_some, Record.stored, if_neg hne]
    · rfl

/-- Without a commit, a creation or a store into it, the newest record of an object stays the
newest. -/
theorem Sound.newest?_run (hl : l.Sound) {effects : List (Effect α)} (hadmits : l.AdmitsAll effects)
    (hcommits : ∀ g merges, .committed g merges ∉ effects)
    (hmakes : ∀ effect ∈ effects, effect.makes? ≠ some o)
    (hstores : ∀ effect ∈ effects, ∀ g, effect.writes? = some (o, g) →
      ∀ r, l.newest? o = some r → r.generation ≠ g) :
    (l.run effects).newest? o = l.newest? o := by
  induction effects generalizing l with
  | nil => rfl
  | cons effect rest ih =>
    have hfirst := hl.newest?_apply hadmits.1
      (fun g merges heq => hcommits g merges (heq ▸ List.mem_cons_self))
      (hmakes effect List.mem_cons_self) (hstores effect List.mem_cons_self)
    rw [run_cons, ← hfirst]
    refine ih (hl.apply hadmits.1) hadmits.2
      (fun g merges hmem => hcommits g merges (List.mem_cons_of_mem _ hmem))
      (fun other hother => hmakes other (List.mem_cons_of_mem _ hother)) ?_
    rw [hfirst]
    exact fun other hother => hstores other (List.mem_cons_of_mem _ hother)

end Ledger

/-- The object into whose record a call stores a value when it ends, and how. -/
def Call.stores? : Call α → Option (ObjectId × (α → α))
  | .write o change | .writeIn _ o change => some (o, change)
  | _ => none

/-- What a call makes of the record that a commit in the middle of it published for an object: the
value is stored at the end into the frame's own record, unless it was merged. -/
def Record.settled (r : Record α) (call : Call α) (event : CommitEvent) (o : ObjectId) :
    Record α :=
  match call.stores? with
  | some (p, change) =>
    if p = o ∧ o ∉ event.merged then { r with value := change r.value } else r
  | none => r

namespace World

variable {u w : World α}

/-! ## Closed records stay as they are -/

/-- Who writes is an open frame. -/
theorem active_of_writes (hw : w.Tidy) {call : Call α} {f : FrameId} {o : ObjectId}
    (h : w.Writes call f o) : (w.frame f).isActive = true := by
  obtain ⟨hwriter, hrecord⟩ := h
  have hwriting {g : FrameId} {p : ObjectId} {change : α → α}
      (hok : (Answer.record (w.writing (writableIn g p) p change).1).hasRecord = true) :
      (w.frame g).isActive = true := by
    rw [writing_fst] at hok
    cases hprepare : w.prepareWrite g p with
    | mk result v =>
    cases result with
    | error violation =>
      rw [hprepare] at hok
      cases hok
    | ok r => exact (of_prepareWrite hprepare).1
  cases hknown : w.knows call with
  | false =>
    rw [perform, hknown, if_neg Bool.false_ne_true] at hrecord
    cases hrecord
  | true =>
    rw [perform, if_pos hknown] at hrecord
    cases call with
    | construct typeName merge initial =>
      obtain ⟨g, hg, heq⟩ := Option.map_eq_some_iff.mp hwriter
      obtain ⟨rfl, -⟩ := Prod.mk.inj heq
      exact (of_makingFrame? hw hg).2.1
    | write p change =>
      obtain ⟨g, hcurrent, heq⟩ := Option.map_eq_some_iff.mp hwriter
      obtain ⟨rfl, rfl⟩ := Prod.mk.inj heq
      dsimp only [act] at hrecord
      rw [writing_writable hcurrent] at hrecord
      exact hwriting hrecord
    | writeIn g p change =>
      obtain ⟨rfl, rfl⟩ := Prod.mk.inj (Option.some.inj hwriter)
      exact hwriting hrecord
    | _ => cases hwriter

/-- What a call writes is of a generation that is open when the call is made. -/
theorem mem_generations_of_writes? (hw : w.Tidy) {call : Call α} {effect : Effect α}
    {o : ObjectId} {g : Generation} (h : effect ∈ w.effects call)
    (hwrites : effect.writes? = some (o, g)) : g ∈ w.ledger.table.generations := by
  obtain ⟨f, rfl, hwriter⟩ := exists_writes_of_mem_effects h hwrites
  exact hw.generation_mem (lt_of_writes hw hwriter) (active_of_writes hw hwriter)

/-- After any calls, the records of the generations closed before them are as they were. -/
theorem mem_chain_of_mem_after (hw : w.Tidy) {calls : List (Call α)} {o : ObjectId} {r : Record α}
    (hpast : r.generation < w.ledger.next) (hclosed : r.generation ∉ w.ledger.table.generations)
    (hr : r ∈ ((w.after calls).ledger.chain o).records) : r ∈ (w.ledger.chain o).records := by
  induction calls generalizing w with
  | nil => exact hr
  | cons call rest ih =>
    have hfollows := follows_step hw call
    have hnext : w.ledger.next ≤ (w.step call).ledger.next := by
      rw [hfollows.ledger_eq]
      exact Ledger.next_le_run _ _
    have hstays : r.generation ∉ (w.step call).ledger.table.generations := by
      intro hopen
      obtain ⟨invalid, hentry⟩ := OpenTable.mem_generations.mp hopen
      rw [hfollows.ledger_eq] at hentry
      exact hclosed (OpenTable.mem_generations.mpr
        ⟨invalid, Ledger.mem_table_of_mem_run hentry hpast⟩)
    have hstep := ih hfollows.tidy (Nat.lt_of_lt_of_le hpast hnext) hstays hr
    rw [hfollows.ledger_eq] at hstep
    refine hw.sound.mem_chain_of_mem_run hfollows.admits hpast hclosed (fun effect h hwrites => ?_)
      hstep
    exact hclosed (mem_generations_of_writes? hw h hwrites)

/-- The record of a closed generation is trimmed sooner or later, or stays the same. -/
theorem find?_after_of_closed (hw : w.Tidy) (calls : List (Call α)) {o : ObjectId}
    {g : Generation} (hpast : g < w.ledger.next) (hclosed : g ∉ w.ledger.table.generations)
    {s : Record α} (hs : ((w.after calls).ledger.chain o).find? g = some s) :
    (w.ledger.chain o).find? g = some s := by
  obtain ⟨hmem, rfl⟩ := Chain.mem_of_find? hs
  exact (hw.sound.coherent o).ascending.find?_eq_some_iff.mpr
    ⟨mem_chain_of_mem_after hw hpast hclosed hmem, rfl⟩

/-! ## A commit in the middle of a call -/

/-- A call that attempts a commit does nothing else, or stores its value into the record of the
frame afterwards. -/
theorem step_of_mem_commitsIn (hw : w.Tidy) {call : Call α} {f : FrameId}
    (h : (u, f) ∈ w.commitsIn call) :
    call = .commit f ∧ w.step call = (u.commitActive f).2 ∨
      ∃ o change, call.stores? = some (o, change) ∧
        o < (u.commitActive f).2.objects.length ∧
        w.step call = (u.commitActive f).2.store o (u.frame f).generation change := by
  obtain ⟨hknown, ⟨rfl, rfl, hactive⟩ | ⟨o, change, hwrites, hclosing, rfl⟩⟩ := of_mem_commitsIn h
  · refine Or.inl ⟨rfl, ?_⟩
    rw [step, perform, if_pos hknown]
    dsimp only [act, World.commit]
    rw [if_pos hactive]
  · right
    obtain ⟨r, v, hprepare, hwritten, hobserved, honce⟩ := of_closingOnWrite? hclosing
    have hstep : w.step call = (w.act call).2 := by rw [step, perform, if_pos hknown]
    obtain ⟨hf, ho, hstores, hwriting⟩ : f < w.frames.length ∧ o < w.objects.length ∧
        call.stores? = some (o, change) ∧
        w.step call = (w.writing (writableIn f o) o change).2 := by
      cases hwrites with
      | current hcurrent =>
        refine ⟨hw.current f hcurrent, hasObject_iff.mp hknown, rfl, ?_⟩
        rw [hstep, ← writing_writable hcurrent]
        rfl
      | named =>
        obtain ⟨hf, ho⟩ := Bool.and_eq_true_iff.mp hknown
        exact ⟨hasFrame_iff.mp hf, hasObject_iff.mp ho, rfl, hstep⟩
    have hf' : f < v.frames.length := (length_frames_prepareWrite hprepare).symm ▸ hf
    have hactive : (v.frame f).isActive = true :=
      (frame_prepareWrite Frame.isActive (fun _ _ => rfl) (fun _ _ => rfl) hprepare f).trans
        (of_prepareWrite hprepare).1
    have hgen : ((v.tellWrite f o).frame f).generation = r.generation := by
      rw [frame_tellWrite hf', generation_of_prepareWrite hprepare]
      exact frame_prepareWrite Frame.generation (fun _ _ => rfl) (fun _ _ => rfl) hprepare f
    have hlength := length_objects_afterObserver (follows_prepareWrite hw hf ho hprepare).tidy
      hf' hactive o
    have hobserver : v.afterObserver f o = ((v.tellWrite f o).commitActive f).2 := by
      rw [afterObserver, hobserved, honce]
      rfl
    rw [hobserver, length_objects_prepareWrite hprepare] at hlength
    rw [hprepare]
    refine ⟨o, change, hstores, hlength.symm ▸ ho, ?_⟩
    rw [hwriting, writing, writableIn_run, hprepare]
    dsimp only
    rw [hwritten, hgen, ← hobserver]
    rfl

/-- A successful commit publishes under the generation of its frame what it has not merged, and
under a new one what it has. -/
theorem publishedUnder_eq (hw : w.Tidy) {f : FrameId} (hf : f < w.frames.length)
    (hactive : (w.frame f).isActive = true) {event : CommitEvent}
    (hok : (w.commitActive f).1 = .ok event) (o : ObjectId) :
    (o ∉ event.merged → event.publishedUnder o = (w.frame f).generation) ∧
      (o ∈ event.merged → w.ledger.next ≤ event.publishedUnder o) := by
  obtain ⟨merges, -, -, -, hgen, hmerged, hgens⟩ := of_commitActive_ok hw hf hactive hok
  rw [CommitEvent.publishedUnder, hmerged, hgens, lookup_merged, hgen]
  cases hpublished : published? w.ledger.next merges o with
  | none =>
    refine ⟨fun _ => rfl, fun hmem => ?_⟩
    obtain ⟨merge, hmerge, rfl⟩ := List.mem_map.mp hmem
    exact absurd rfl (published?_eq_none_iff.mp hpublished merge hmerge)
  | some r =>
    obtain ⟨⟨merge, hmem, rfl, -⟩, hle, -⟩ := of_published? hpublished
    exact ⟨fun hnot => absurd (List.mem_map_of_mem hmem) hnot, fun _ => hle⟩

/-- What a successful commit published is closed. -/
theorem publishedUnder_notMem (hw : w.Tidy) {f : FrameId} (hf : f < w.frames.length)
    (hactive : (w.frame f).isActive = true) {event : CommitEvent}
    (hok : (w.commitActive f).1 = .ok event) (o : ObjectId) :
    event.publishedUnder o ∉ (w.commitActive f).2.ledger.table.generations := by
  obtain ⟨merges, objects, heffects, hpending, -⟩ := of_commitActive_ok hw hf hactive hok
  have hsound := hw.sound.apply (admits_committed hw hf hactive hpending)
  have htable : (w.commitActive f).2.ledger.table =
      w.ledger.table.without (w.frame f).generation := by
    rw [(follows_commitActive hw hf hactive).ledger_eq, heffects, Ledger.run_cons,
      (hsound.run_trimmed objects).2.1]
    rfl
  obtain ⟨hown, hmerged⟩ := publishedUnder_eq hw hf hactive hok o
  rw [htable, OpenTable.mem_generations_without, not_and_not_right]
  intro hopen
  by_cases hmem : o ∈ event.merged
  · exact absurd hopen (hw.sound.timely.next_notMem (hmerged hmem))
  · exact hown hmem

/-- The record that a successful commit published of an object of which its frame has one, what the
call makes of that record, and that it stays so in every later world. -/
theorem published_after (hw : w.Tidy) {call : Call α} {f : FrameId}
    (hmem : (u, f) ∈ w.commitsIn call) {event : CommitEvent}
    (hok : (u.commitActive f).1 = .ok event) {o : ObjectId} (hholds : u.Holds f o) :
    ∃ r, ((u.commitActive f).2.object o).chain.find? (event.publishedUnder o) = some r ∧
      ((w.step call).object o).chain.find? (event.publishedUnder o) =
        some (r.settled call event o) ∧
      ∀ more s, (((w.step call).after more).object o).chain.find? (event.publishedUnder o) =
        some s → s = r.settled call event o := by
  obtain ⟨-, hf, hactive, before, after, -, hfollows, -⟩ := attempts_of_mem_commitsIn hw hmem
  have hu := hfollows.tidy
  obtain ⟨mine, hmine⟩ := Option.isSome_iff_exists.mp hholds
  obtain ⟨r, hr, hrgen, -⟩ := commit_publishes hu hf hactive hok hmine
  have hv := (follows_commitActive hu hf hactive).tidy
  have hclosed := publishedUnder_notMem hu hf hactive hok o
  obtain ⟨hown, hmerged⟩ := publishedUnder_eq hu hf hactive hok o
  have hpast : event.publishedUnder o < (u.commitActive f).2.ledger.next :=
    hrgen ▸ (hv.sound.coherent o).minted r (Chain.mem_of_find? hr).1
  -- The call ends with the commit, or with a value stored.
  obtain ⟨htable, hnext, hsettled⟩ :
      (w.step call).ledger.table = (u.commitActive f).2.ledger.table ∧
        (w.step call).ledger.next = (u.commitActive f).2.ledger.next ∧
        ((w.step call).ledger.chain o).find? (event.publishedUnder o) =
          some (r.settled call event o) := by
    rcases step_of_mem_commitsIn hw hmem with ⟨rfl, hstep⟩ | ⟨p, change, hstores, hp, hstep⟩
    · rw [hstep]
      exact ⟨rfl, rfl, hr⟩
    · rw [hstep, ledger_store hp, Ledger.apply, Record.settled, hstores]
      refine ⟨rfl, rfl, ?_⟩
      rw [Ledger.modifyChain_chain]
      by_cases hop : o = p
      · have hmine : r.generation = (u.frame f).generation ↔ o ∉ event.merged := by
          rw [hrgen]
          refine ⟨fun heq hmem => ?_, hown⟩
          exact absurd (hu.fits f hf).minted (heq ▸ Nat.not_lt_of_le (hmerged hmem))
        simp only [hop, if_true, Chain.find?_store]
        rw [← hop, hr, Option.map_some, Record.stored]
        simp only [hmine, true_and]
      · rw [if_neg hop]
        simp only [Ne.symm hop, false_and, if_false]
        exact hr
  refine ⟨r, hr, hsettled, fun more s hs => ?_⟩
  have hfound := find?_after_of_closed (hw.step call) more (hnext ▸ hpast) (htable ▸ hclosed) hs
  exact Option.some.inj (hfound.symm.trans hsettled)

/-! ## Reads between commits -/

/-- A call that commits nothing leaves the newest committed records alone. -/
theorem newest?_step (hw : w.Tidy) {call : Call α}
    (hrefused : ∀ attempt ∈ w.commitsIn call, ∃ refusal, outcome attempt = .error refusal)
    {o : ObjectId} (ho : o < w.objects.length) :
    (w.step call).ledger.newest? o = w.ledger.newest? o := by
  have hfollows := follows_step hw call
  rw [hfollows.ledger_eq]
  refine hw.sound.newest?_run hfollows.admits (fun g merges hmem => ?_) (fun effect h hmakes => ?_)
    fun effect h g hwrites r hr => ?_
  · cases hcommits : w.commitsIn call with
    | nil => exact commitsIn_ne_nil hmem hcommits
    | cons attempt rest =>
      obtain ⟨v, f⟩ := attempt
      have hattempt : (v, f) ∈ w.commitsIn call := hcommits ▸ List.mem_cons_self
      obtain ⟨refusal, hrefusal⟩ := hrefused _ hattempt
      obtain ⟨-, hf, hactive, before, after, heffects, hv, hbefore, hafter⟩ :=
        attempts_of_mem_commitsIn hw hattempt
      rw [heffects, List.mem_append, List.mem_append] at hmem
      rcases hmem with hmem | hmem | hmem
      · obtain ⟨p, s, heq⟩ := hbefore _ hmem
        cases heq
      · rw [outcome, (commitActive_spec hv.tidy hf hactive).1] at hrefusal
        unfold commitEffects at hmem
        unfold commitResult at hrefusal
        cases hpending : v.pendingMerges f with
        | error e =>
          rw [hpending] at hmem
          cases List.mem_singleton.mp hmem
        | ok merges =>
          rw [hpending] at hrefusal
          cases hrefusal
      · obtain ⟨p, g, change, heq⟩ := hafter _ hmem
        cases heq
  · exact absurd (eq_length_of_makes? h hmakes) (Nat.ne_of_lt ho)
  · obtain ⟨-, hcommitted, -⟩ := (hw.sound.coherent o).inherited?_snapshot_eq_some_iff.mp hr
    rintro rfl
    exact (Record.isCommitted_iff.mp hcommitted).2 (mem_generations_of_writes? hw h hwrites)

/-- As long as every commit is refused, the newest record of each object stays what it was. -/
theorem newest?_after (hw : w.Tidy) {calls : List (Call α)}
    (hrefused : ∀ attempt ∈ w.commits calls, ∃ refusal, outcome attempt = .error refusal)
    {o : ObjectId} (ho : o < w.objects.length) :
    (w.after calls).ledger.newest? o = w.ledger.newest? o := by
  induction calls generalizing w with
  | nil => rfl
  | cons call rest ih =>
    have hfirst := newest?_step hw
      (fun attempt hmem => hrefused attempt (List.mem_append_left _ hmem)) ho
    have hrest := ih (hw.step call)
      (fun attempt hmem => hrefused attempt (List.mem_append_right _ hmem))
      (Nat.lt_of_lt_of_le ho (length_objects_le_step hw call))
    exact hrest.trans hfirst

/-- Outside of frames a read finds the newest committed record. -/
theorem perform_read_outside {o : ObjectId} (ho : o < w.objects.length)
    (hcurrent : w.current = none) :
    (w.perform (.read o)).1 = .record (match w.selectCommitted? o with
      | some r => .ok r
      | none => .error (.uncommitted (w.object o).typeName o)) := by
  have hknown : w.knows (.read o) = true := hasObject_iff.mpr ho
  have houtside : w.currentFrameOf? (w.object o).manager = none := by
    rw [currentFrameOf?, hcurrent]
    rfl
  rw [perform, if_pos hknown]
  dsimp only [act]
  rw [running, readable_run, houtside]
  cases w.selectCommitted? o <;> rfl

/-- **Committed values.** What a successful commit publishes of an object, the frame's own record or
the merged one, stays as the call leaves it in which the frame is committed, for as long as it is in
the chain. The call leaves it as it was published unless it is a write of the object in the middle
of which the observer, told of the first write of any object, commits the frame: then the value is
stored into the frame's own record after the commit, though never into a merged one. In a run in
which no commit succeeds, reads outside of frames find the same at the end as at the start. -/
theorem committed_values (config : Config) (calls : List (Call α)) :
    let w := (start α config).after calls
    (∀ call u f event, (u, f) ∈ w.commitsIn call → (u.commitActive f).1 = .ok event →
      ∀ o, u.Holds f o →
      ∃ r, ((u.commitActive f).2.object o).chain.find? (event.publishedUnder o) = some r ∧
        ((w.step call).object o).chain.find? (event.publishedUnder o) =
          some (r.settled call event o) ∧
        ∀ more s, (((w.step call).after more).object o).chain.find? (event.publishedUnder o) =
          some s → s = r.settled call event o) ∧
    ∀ more, (∀ attempt ∈ w.commits more, ∃ refusal, outcome attempt = .error refusal) →
      w.current = none → (w.after more).current = none → ∀ o < w.objects.length, ∀ r,
      (w.perform (.read o)).1 = .record (.ok r) ↔
        ((w.after more).perform (.read o)).1 = .record (.ok r) := by
  have hw := (tidy_start α config).after calls
  dsimp only
  generalize (start α config).after calls = w at hw
  refine ⟨fun call u f event hmem hok o hholds => published_after hw hmem hok hholds,
    fun more hrefused hcurrent hcurrent' o ho r => ?_⟩
  have hsame : (w.after more).selectCommitted? o = w.selectCommitted? o := by
    rw [(hw.after more).selectCommitted?_eq, hw.selectCommitted?_eq]
    exact newest?_after hw hrefused ho
  rw [perform_read_outside ho hcurrent, perform_read_outside
    (Nat.lt_of_lt_of_le ho (length_objects_le_after hw more)) hcurrent', hsame]
  cases w.selectCommitted? o <;> simp

/-- A counter is made, and a frame is opened whose observer commits it at the first write. -/
def committedOnWrite : List (Call Nat) :=
  [.construct "Counter" (fun _ _ _ => none) 0,
    .openFrame { observed := true, onFirstWrite := some .commit }]

/-- The value of a write is stored into a record that was published in the middle of the write. -/
theorem committed_value_overwritten :
    ¬ ∀ (config : Config) (calls : List (Call Nat)) (call : Call Nat) (u : World Nat) (f : FrameId)
      (event : CommitEvent) (o : ObjectId) (r s : Record Nat),
      let w := (start Nat config).after calls
      (u, f) ∈ w.commitsIn call → (u.commitActive f).1 = .ok event →
      ((u.commitActive f).2.object o).chain.find? (event.publishedUnder o) = some r →
      ((w.step call).object o).chain.find? (event.publishedUnder o) = some s → s = r := by
  intro h
  have hsame := h {} committedOnWrite (.writeIn 0 0 fun _ => 5)
    ((((start Nat {}).after committedOnWrite).prepareWrite 0 0).2.tellWrite 0 0) 0
    { generation := 2, changed := [0], merged := [], mergedGenerations := [] } 0
    { generation := 2, base := some 1, value := 0 } { generation := 2, base := some 1, value := 5 }
    (List.mem_singleton_self _) (by decide) (by decide) (by decide)
  exact absurd hsame (by decide)

/-- A frame writes a counter and commits; the published record keeps its value whatever comes. -/
theorem committed_values_of_commit :
    let w := (start Nat {}).after [.construct "Counter" (fun _ _ _ => none) 0, .openFrame {},
      .writeIn 0 0 fun _ => 7]
    ((w.step (.commit 0)).object 0).chain.find? 2 =
        some { generation := 2, base := some 1, value := 7 } ∧
      ∀ more s, (((w.step (.commit 0)).after more).object 0).chain.find? 2 = some s →
        s = { generation := 2, base := some 1, value := 7 } := by
  intro w
  obtain ⟨hpublished, -⟩ := committed_values {} [.construct "Counter" (fun _ _ _ => none) (0 : Nat),
    .openFrame {}, .writeIn 0 0 fun _ => 7]
  have hfound : ((w.step (.commit 0)).object 0).chain.find? 2 =
      some { generation := 2, base := some 1, value := 7 } := by decide
  obtain ⟨r, -, hstep, hafter⟩ := hpublished (.commit 0) w 0
    { generation := 2, changed := [0], merged := [], mergedGenerations := [] }
    (List.mem_singleton_self _) (by decide) 0 (show w.Holds 0 0 by decide)
  obtain rfl := Option.some.inj (hstep.symm.trans hfound)
  exact ⟨hfound, hafter⟩

end World

end VersionedObjects.Store
