import VersionedObjects.Proofs.Store.WorldThinning

/-!
# Collection goes unobserved

A run is repeated without any trimming: chains are trimmed only on request and nobody requests it.
Every call is answered the same in both runs, and every commit has the same result. The one
exception is the question for a visible record inside a closed frame, whose records are kept for
nobody.
-/

namespace VersionedObjects.Store

variable {α : Type}

/-- The call asks to trim a chain. -/
def Call.collects : Call α → Bool
  | .collect _ => true
  | _ => false

/-- A view selects something exactly if it sees a record. -/
theorem Chain.isSome_select?_iff {c : Chain α} {view : Visibility} :
    (c.select? view).isSome = true ↔ ∃ r ∈ c.records, r.visibleTo view = true := by
  rw [← not_iff_not, Bool.not_eq_true, Option.isSome_eq_false_iff, Option.isNone_iff_eq_none,
    select?, newest?_eq_none_iff, not_exists]
  exact forall_congr' fun r => by rw [not_and]

namespace World

variable {a b w : World α} {f : FrameId}

/-- The call asks for a visible record while the current frame is closed. -/
def asksInClosed (w : World α) : Call α → Bool
  | .hasVisibleRecord _ => w.current.any fun f => !(w.frame f).isActive
  | _ => false

namespace Thins

/-! ## Calls -/

/-- A frame is entered in both worlds or refused in both. -/
theorem enterFrame (h : b.Thins a) (hf : f < b.frames.length) :
    (b.enterFrame f).1 = (a.enterFrame f).1 ∧ (b.enterFrame f).2.Thins (a.enterFrame f).2 := by
  rw [World.enterFrame, World.enterFrame, h.current_eq]
  cases a.current.filter (· != f) with
  | some g =>
    dsimp only
    rw [h.frame_eq, h.frame_eq]
    exact ⟨rfl, h⟩
  | none =>
    refine ⟨rfl, (h.hold f).setCurrent fun g hg => ?_⟩
    rw [World.hold, length_frames_modifyFrame]
    exact Option.some.inj hg ▸ hf

/-- A frame is left in both worlds. -/
theorem leaveFrame (h : b.Thins a) (hf : f < b.frames.length) (first : Bool) :
    (b.leaveFrame f first).Thins (a.leaveFrame f first) := by
  refine (h.setCurrent fun g hg => ?_).release hf
  split at hg
  · cases hg
  · exact Option.some.inj hg ▸ hf

/-- An object is announced in both worlds. -/
theorem notifyCreated (h : b.Thins a) (o : ObjectId) :
    (b.notifyCreated o).Thins (a.notifyCreated o) := by
  refine h.of_follows (follows_notifyCreated h.tidy o) (follows_notifyCreated h.tidy' o) ?_
  rw [outline_notifyCreated, outline_notifyCreated, h.outline_eq]

/-- The answer is the same unless it is about the sight of a closed frame. -/
theorem hasVisibleRecord_eq (h : b.Thins a) {o : ObjectId}
    (hasks : b.asksInClosed (.hasVisibleRecord o) = false) :
    b.hasVisibleRecord o = a.hasVisibleRecord o := by
  cases hcurrent : b.current with
  | none =>
    have hcurrent' : a.current = none := h.current_eq ▸ hcurrent
    simp only [hasVisibleRecord, currentFrameOf?, hcurrent, hcurrent', Option.filter_none,
      h.selectCommitted?_eq]
  | some f =>
    have hactive : (b.frame f).isActive = true := by
      simpa [asksInClosed, hcurrent] using hasks
    rw [hasVisibleRecord_of_current h.tidy hcurrent,
      hasVisibleRecord_of_current h.tidy' (h.current_eq ▸ hcurrent),
      h.select?_eq (h.tidy.current f hcurrent) hactive]

/-- In a closed frame the answers differ exactly when all that the frame sees was trimmed. -/
theorem hasVisibleRecord_ne_iff (h : b.Thins a) (hcurrent : b.current = some f) (o : ObjectId) :
    b.hasVisibleRecord o ≠ a.hasVisibleRecord o ↔
      (∃ r ∈ (a.object o).chain.records, r.visibleTo (a.frame f).view = true) ∧
        ∀ r ∈ (a.object o).chain.records, r.visibleTo (a.frame f).view = true →
          r ∉ (b.object o).chain.records := by
  have hsubset : ∀ r ∈ (b.object o).chain.records, r ∈ (a.object o).chain.records :=
    (h.ledger.chain o).subset
  rw [hasVisibleRecord_of_current h.tidy hcurrent,
    hasVisibleRecord_of_current h.tidy' (h.current_eq ▸ hcurrent), h.frame_eq, ne_eq,
    Bool.eq_iff_iff, World.select?, World.select?, Chain.isSome_select?_iff,
    Chain.isSome_select?_iff]
  constructor
  · intro hne
    have hnone : ¬ ∃ r ∈ (b.object o).chain.records, r.visibleTo (a.frame f).view = true := by
      rintro ⟨r, hr, hsees⟩
      exact hne (iff_of_true ⟨r, hr, hsees⟩ ⟨r, hsubset r hr, hsees⟩)
    refine ⟨by_contra fun hnone' => hne (iff_of_false hnone hnone'), fun r _ hsees hr => ?_⟩
    exact hnone ⟨r, hr, hsees⟩
  · rintro ⟨hsome, hgone⟩ hiff
    obtain ⟨r, hr, hsees⟩ := hiff.mpr hsome
    exact hgone r (hsubset r hr) hsees hr

/-- A call that both worlds are asked is answered the same, and they stay the same but for what was
trimmed. -/
theorem perform (h : b.Thins a) {call : Call α} (hcall : call.collects = false) :
    (b.asksInClosed call = false → (b.perform call).1 = (a.perform call).1) ∧
      (b.step call).Thins (a.step call) := by
  unfold World.step World.perform
  rw [h.knows_eq]
  split
  swap
  · exact ⟨fun _ => rfl, h⟩
  next hknown =>
  rw [← h.knows_eq] at hknown
  cases call with
  | openFrame options =>
    obtain ⟨hresult, hthins⟩ := h.openFrame options
    exact ⟨fun _ => congrArg Answer.opened hresult, hthins⟩
  | commit f =>
    obtain ⟨hresult, hthins⟩ := h.commit (hasFrame_iff.mp hknown)
    exact ⟨fun _ => congrArg Answer.committed hresult, hthins⟩
  | discard f => exact ⟨fun _ => rfl, h.discard (hasFrame_iff.mp hknown)⟩
  | hold f => exact ⟨fun _ => rfl, h.hold f⟩
  | drop f => exact ⟨fun _ => rfl, h.release (hasFrame_iff.mp hknown)⟩
  | enter f =>
    obtain ⟨hresult, hthins⟩ := h.enterFrame (hasFrame_iff.mp hknown)
    exact ⟨fun _ => congrArg Answer.entered hresult, hthins⟩
  | leave first =>
    obtain ⟨f, hf⟩ := Option.isSome_iff_exists.mp hknown
    dsimp only [act]
    rw [← h.current_eq, hf]
    exact ⟨fun _ => rfl, h.leaveFrame (h.tidy.current f hf) first⟩
  | construct typeName merge initial =>
    obtain ⟨hresult, hthins⟩ := h.newObject typeName merge initial
    exact ⟨fun _ => congrArg Answer.made hresult, hthins⟩
  | announce o => exact ⟨fun _ => rfl, h.notifyCreated o⟩
  | read o =>
    obtain ⟨hresult, hthins⟩ := h.readable o
    exact ⟨fun _ => congrArg Answer.record hresult, hthins⟩
  | readIn f o =>
    obtain ⟨hresult, hthins⟩ := h.readableIn (hasFrame_iff.mp (Bool.and_eq_true_iff.mp hknown).1) o
    exact ⟨fun _ => congrArg Answer.record hresult, hthins⟩
  | hasVisibleRecord o =>
    exact ⟨fun hasks => congrArg Answer.visible (h.hasVisibleRecord_eq hasks), h⟩
  | write o change =>
    dsimp only [act]
    cases hcurrent : b.current with
    | none =>
      rw [writing_writable_none hcurrent, writing_writable_none (h.current_eq ▸ hcurrent),
        h.typeName_eq]
      exact ⟨fun _ => rfl, h⟩
    | some f =>
      rw [writing_writable hcurrent, writing_writable (h.current_eq ▸ hcurrent)]
      obtain ⟨hresult, hthins⟩ :=
        h.writing (h.tidy.current f hcurrent) (hasObject_iff.mp hknown) change
      exact ⟨fun _ => congrArg Answer.record hresult, hthins⟩
  | writeIn f o change =>
    obtain ⟨hf, ho⟩ := Bool.and_eq_true_iff.mp hknown
    obtain ⟨hresult, hthins⟩ := h.writing (hasFrame_iff.mp hf) (hasObject_iff.mp ho) change
    exact ⟨fun _ => congrArg Answer.record hresult, hthins⟩
  | collect o => cases hcall

/-- A request to trim goes to the thinner world alone. -/
theorem collect (h : b.Thins a) (o : ObjectId) : (b.step (.collect o)).Thins a := by
  have hfollows := follows_step h.tidy (.collect o)
  have huntrimmed : untrimmed (b.effects (.collect o)) = [] := by
    rw [effects]
    split <;> rfl
  have houtline : (b.step (.collect o)).outline = b.outline := by
    rw [World.step, World.perform]
    split
    · exact outline_collect b 0 o
    · rfl
  refine h.of_follows hfollows (huntrimmed ▸ .refl h.tidy') ?_
  rw [houtline, h.outline_eq]

/-! ## Commits -/

/-- A write has the observer attempt the same commit. -/
theorem map_outcome_commitsOnWrite (h : b.Thins a) (hf : f < b.frames.length) {o : ObjectId}
    (ho : o < b.objects.length) :
    (b.commitsOnWrite f o).map outcome = (a.commitsOnWrite f o).map outcome := by
  have hclosing : b.closingOnWrite? f o = a.closingOnWrite? f o := by
    have hresult := (h.prepareWrite_eq hf o).1
    rw [closingOnWrite?, closingOnWrite?, h.frame_eq]
    cases hb : b.prepareWrite f o with
    | mk result v =>
    cases ha : a.prepareWrite f o with
    | mk result' u =>
    rw [hb, ha] at hresult
    obtain rfl : result = result' := hresult
    cases result <;> rfl
  rw [commitsOnWrite, commitsOnWrite, hclosing]
  split
  · next hcommit =>
    obtain ⟨hmade, hactive, -⟩ :=
      writeEffects_committing h.tidy hf ho id (hclosing.trans hcommit)
    have hthins := (h.prepareWrite hf ho).tellWrite f o
    exact congrArg (fun result => [result]) (hthins.commitActive hmade hactive).1
  · rfl

/-- A call attempts a commit of the same result. -/
theorem map_outcome_commitsIn (h : b.Thins a) (call : Call α) :
    (b.commitsIn call).map outcome = (a.commitsIn call).map outcome := by
  unfold commitsIn
  rw [h.knows_eq]
  split
  swap
  · rfl
  next hknown =>
  rw [← h.knows_eq] at hknown
  cases call with
  | commit f =>
    dsimp only
    rw [h.frame_eq]
    split
    · next hactive =>
      have hcommit := h.commitActive (hasFrame_iff.mp hknown) (h.frame_eq f ▸ hactive)
      exact congrArg (fun result => [result]) hcommit.1
    · rfl
  | write o change =>
    dsimp only
    rw [← h.current_eq]
    cases hcurrent : b.current with
    | none => rfl
    | some f =>
      exact h.map_outcome_commitsOnWrite (h.tidy.current f hcurrent) (hasObject_iff.mp hknown)
  | writeIn f o change =>
    obtain ⟨hf, ho⟩ := Bool.and_eq_true_iff.mp hknown
    exact h.map_outcome_commitsOnWrite (hasFrame_iff.mp hf) (hasObject_iff.mp ho)
  | _ => rfl

/-! ## Runs -/

/-- The worlds stay the same but for what was trimmed, and attempt commits of the same results. -/
theorem after (h : b.Thins a) (calls : List (Call α)) :
    let kept := calls.filter fun call => !call.collects
    (b.after calls).Thins (a.after kept) ∧
      (b.commits calls).map outcome = (a.commits kept).map outcome := by
  induction calls generalizing a b with
  | nil => exact ⟨h, rfl⟩
  | cons call rest ih =>
    dsimp only at ih ⊢
    cases hcall : call.collects with
    | true =>
      rw [List.filter_cons_of_neg (by simp [hcall])]
      obtain ⟨o, rfl⟩ : ∃ o, call = .collect o := by
        cases call with
        | collect o => exact ⟨o, rfl⟩
        | _ => cases hcall
      have hnone : b.commitsIn (.collect o) = [] := by
        unfold commitsIn
        split <;> rfl
      rw [commits, hnone]
      exact ih (h.collect o)
    | false =>
      rw [List.filter_cons_of_pos (by simp [hcall])]
      obtain ⟨hthins, hcommits⟩ := ih (h.perform hcall).2
      refine ⟨hthins, ?_⟩
      rw [commits, commits, List.map_append, List.map_append, hcommits, h.map_outcome_commitsIn]

end Thins

/-- At the start nothing was trimmed. -/
theorem thins_start (α : Type) (config : Config) :
    (start α config).Thins (start α { config with gc := .manual }) :=
  ⟨tidy_start α config, tidy_start α _, rfl, .refl _⟩

/-- **Collection goes unobserved.** A run in which chains are trimmed, by commits or on request, is
repeated without any trimming. Every call is answered the same, unless it asks inside a closed frame
for a visible record, every commit has the same result, and the frames and their own and the
committed records are the same. In a closed frame the answers differ exactly when all that the frame
sees of the object was trimmed. -/
theorem collection_unobserved (config : Config) (calls : List (Call α)) :
    let kept := calls.filter fun call => !call.collects
    let trimmed := (start α config).after calls
    let whole := (start α { config with gc := .manual }).after kept
    (∀ call, call.collects = false → trimmed.asksInClosed call = false →
      (trimmed.perform call).1 = (whole.perform call).1) ∧
    ((start α config).commits calls).map outcome =
      ((start α { config with gc := .manual }).commits kept).map outcome ∧
    trimmed.frames = whole.frames ∧ trimmed.current = whole.current ∧
    (∀ o, trimmed.selectCommitted? o = whole.selectCommitted? o) ∧
    (∀ f < trimmed.frames.length, (trimmed.frame f).isActive = true → ∀ o,
      (trimmed.object o).chain.find? (trimmed.frame f).generation =
        (whole.object o).chain.find? (whole.frame f).generation) ∧
    ∀ f, trimmed.current = some f → ∀ o,
      (trimmed.hasVisibleRecord o ≠ whole.hasVisibleRecord o ↔
        (∃ r ∈ (whole.object o).chain.records, r.visibleTo (whole.frame f).view = true) ∧
          ∀ r ∈ (whole.object o).chain.records, r.visibleTo (whole.frame f).view = true →
            r ∉ (trimmed.object o).chain.records) := by
  obtain ⟨hthins, hcommits⟩ := (thins_start α config).after calls
  dsimp only
  generalize (start α config).after calls = trimmed at hthins
  generalize (start α { config with gc := .manual }).after
    (calls.filter fun call => !call.collects) = whole at hthins
  exact ⟨fun call hcall => (hthins.perform hcall).1, hcommits, hthins.frames_eq,
    hthins.current_eq, hthins.selectCommitted?_eq, fun f hf hactive => hthins.find?_eq hf hactive,
    fun f hcurrent => hthins.hasVisibleRecord_ne_iff hcurrent⟩

/-- A counter is raised beside an older frame, which is then discarded while it is current. -/
def discardedInside : List (Call Nat) :=
  [.construct "Counter" (fun _ _ _ => none) 0, .openFrame {}, .openFrame {},
    .writeIn 1 0 fun _ => 5, .commit 1, .enter 0, .discard 0]

/-- In the closed frame a record is visible until the chain is trimmed. -/
theorem collection_observed_in_closed_frame :
    ¬ ∀ (config : Config) (calls : List (Call Nat)) (call : Call Nat), call.collects = false →
      (((start Nat config).after calls).perform call).1 =
        (((start Nat { config with gc := .manual }).after
          (calls.filter fun call => !call.collects)).perform call).1 := by
  intro h
  have hanswer := h {} (discardedInside ++ [.collect 0]) (.hasVisibleRecord 0) rfl
  have hvisible (w : World Nat) (ho : w.hasObject 0 = true) :
      (w.perform (.hasVisibleRecord 0)).1 = .visible (w.hasVisibleRecord 0) := by
    rw [perform, if_pos (show w.knows (.hasVisibleRecord 0) = true from ho)]
    rfl
  rw [hvisible _ (by decide +kernel), hvisible _ (by decide +kernel)] at hanswer
  exact absurd (Answer.visible.inj hanswer) (by decide +kernel)

/-- A reader goes on as before, although the record that a commit replaced was trimmed. -/
theorem collection_unobserved_after_commit :
    let calls : List (Call Nat) := [.construct "Counter" (fun _ _ _ => none) 0, .openFrame {},
      .writeIn 0 0 fun _ => 5, .commit 0]
    let trimmed := (start Nat {}).after calls
    let whole := (start Nat { gc := .manual }).after calls
    (trimmed.object 0).chain.size = 1 ∧ (whole.object 0).chain.size = 2 ∧
      (trimmed.perform (.read 0)).1 = (whole.perform (.read 0)).1 := by
  have h := collection_unobserved {} [.construct "Counter" (fun _ _ _ => none) (0 : Nat),
    .openFrame {}, .writeIn 0 0 fun _ => 5, .commit 0]
  exact ⟨by decide +kernel, by decide +kernel, h.1 (.read 0) rfl rfl⟩

end World

end VersionedObjects.Store
