import VersionedObjects.Proofs.Store.FrameBooks
import VersionedObjects.Proofs.Store.Independence
import VersionedObjects.Proofs.Store.Touching

/-!
# The books of the managers

What else is asked of the store, from the side of the books: objects are made, written and trimmed,
and frames are entered and left. Main statement: whatever is asked of however many managers, the
books of each of them balance, and every frame was opened with the generations of those that were
open before it.
-/

namespace VersionedObjects.Store

variable {α : Type}

namespace World

variable {w : World α} {m : ManagerId} {stamps : List (ManagerId × Visibility)}

namespace Balanced

/-! ## Making objects -/

/-- A new object has a record of the frame that makes it, or of a generation of its own. -/
theorem newObject (hw : w.Balanced stamps) (ho : w.Orderly) (hm : m < w.managers.length)
    (typeName : String) (merge : α → α → α → Option α) (initial : α) :
    (w.newObject m typeName merge initial).2.Balanced stamps := by
  unfold World.newObject
  dsimp only
  split
  · next f hmaking =>
    simp only [makingFrame?, currentFrameOf?, Option.filter_eq_some_iff, Bool.and_eq_true,
      beq_iff_eq] at hmaking
    obtain ⟨⟨hcurrent, hmanager⟩, hactive, -⟩ := hmaking
    have hf := ho.current f hcurrent
    have htouching := hw.of_same (.touch w f w.objects.length)
    have hopen : f ∈ (w.touch f w.objects.length).openFrames m := by
      rw [(SameBooks.touch w f _).openFrames_eq]
      exact mem_openFrames.mpr ⟨hf, hmanager, hactive⟩
    intro k
    refine (htouching k).addObject fun r hr => ?_
    rw [List.mem_singleton.mp hr]
    have hfiles := (htouching k).touched_of_generation_eq hopen (mem_touched_touch hf _)
    rw [generation_touch] at hfiles
    exact hfiles
  · have hminted : (w.mint m).2.Balanced stamps :=
      ((hw m).modifyManager hm rfl (Nat.le_succ _) (List.append_nil _).symm rfl
        fun _ hg => absurd hg List.not_mem_nil).balanced
    intro k
    refine (hminted k).addObject fun r hr => ?_
    rw [List.mem_singleton.mp hr]
    have hself : ((w.mint m).2.manager m).next = (w.manager m).next + 1 :=
      congrArg Manager.next (manager_modifyManager_of_lt hm _)
    refine ⟨?_, fun f hf hgen => ?_⟩
    · exact hself ▸ Nat.lt_succ_self _
    · have hf : f ∈ w.openFrames m := hf
      exact absurd hgen ((hw m).generation_ne_next hf)

/-! ## Writing -/

/-- The books stay balanced when a write is noted. -/
theorem noteWrite (hw : w.Balanced stamps) (f : FrameId) (o : ObjectId) :
    (w.noteWrite f o).Balanced stamps := by
  cases hwritten : (w.frame f).written.contains o with
  | true =>
    rw [World.noteWrite, if_pos hwritten]
    exact hw
  | false =>
    rw [noteWrite_of_notMem hwritten]
    refine (hw.of_same (.touch w f o)).of_same (.modifyFrame _ f fun hf => ?_)
    rw [World.touch, length_frames_modifyFrame] at hf
    refine ⟨rfl, rfl, List.Subset.refl _, fun p hp => ?_⟩
    rcases List.mem_append.mp hp with hp | hp
    · exact Or.inl hp
    · rw [List.mem_singleton.mp hp]
      exact Or.inr (mem_touched_touch hf o)

/-- A frame that writes an object has touched it. -/
theorem mem_touched_noteWrite (hw : w.Balanced stamps) {f : FrameId} (hf : f < w.frames.length)
    (o : ObjectId) : o ∈ ((w.noteWrite f o).frame f).touched := by
  have hnoted := (hw.noteWrite f o) 0
  refine hnoted.written f ((length_frames_noteWrite w f o).symm ▸ hf) ?_
  exact (mem_written_noteWrite hf o f o).mpr (Or.inr ⟨rfl, rfl⟩)

/-- The record that a write branches is of a frame that is open and has touched the object. -/
theorem prepareWrite (hw : w.Balanced stamps) {f : FrameId} (hf : f < w.frames.length)
    (o : ObjectId) : (w.prepareWrite f o).2.Balanced stamps := by
  have hnoted := hw.noteWrite f o
  cases hprepare : w.prepareWrite f o with
  | mk result v =>
  cases result with
  | error violation =>
    rcases of_prepareWrite_error hprepare with rfl | rfl
    · exact hw
    · exact hnoted
  | ok r =>
    have howner := owner_of_prepareWrite hprepare
    have hgeneration := generation_of_prepareWrite hprepare
    rcases of_prepareWrite hprepare with ⟨hactive, ⟨-, rfl⟩ | ⟨-, base, -, -, rfl⟩⟩
    · exact hnoted
    · have hopen : f ∈ (w.noteWrite f o).openFrames ((w.noteWrite f o).object o).manager := by
        refine mem_openFrames.mpr ⟨(length_frames_noteWrite w f o).symm ▸ hf, ?_, ?_⟩
        · rw [frame_noteWrite Frame.manager (fun _ _ => rfl) (fun _ _ => rfl), object_noteWrite,
            howner]
        · rwa [frame_noteWrite Frame.isActive (fun _ _ => rfl) (fun _ _ => rfl)]
      intro k
      refine (hnoted k).link hopen (hw.mem_touched_noteWrite hf o) ?_
      rw [generation_noteWrite, hgeneration]

/-- The observer of a frame may close it. -/
theorem afterObserver (hw : w.Balanced stamps) (ho : w.Orderly) {f : FrameId}
    (hf : f < w.frames.length) (hactive : (w.frame f).isActive = true) (o : ObjectId) :
    (w.afterObserver f o).Balanced stamps := by
  have htell : (w.tell (.wrote o)).SameBooks w := .tell w fun _ => rfl
  have htold : (w.tellWrite f o).SameBooks w :=
    htell.trans (.modifyFrame _ f fun _ => ⟨rfl, rfl, List.Subset.refl _, fun _ => Or.inl⟩)
  have horderly : (w.tellWrite f o).Orderly := (confined_tellWrite ho f o).orderly
  have hf' : f < (w.tellWrite f o).frames.length := htold.length_frames.symm ▸ hf
  have hactive' : ((w.tellWrite f o).frame f).isActive = true := by
    rw [frame_tellWrite hf]
    exact hactive
  rw [World.afterObserver]
  split
  · split
    · exact hw.of_same htold
    · exact (hw.of_same htold).commitActive horderly hf' hactive'
    · exact (hw.of_same htold).discardActive hf' hactive'
  · exact hw

/-- The books stay balanced when a frame writes, also when its observer closes it. -/
theorem writing (hw : w.Balanced stamps) (ho : w.Orderly) {f : FrameId} (hf : f < w.frames.length)
    {o : ObjectId} (hmade : o < w.objects.length) (change : α → α) :
    (w.writing (writableIn f o) o change).2.Balanced stamps := by
  have hprepared := hw.prepareWrite hf o
  have hconfined := confined_prepareWrite ho hf hmade
  rw [World.writing, writableIn_run]
  cases hprepare : w.prepareWrite f o with
  | mk result v =>
  rw [hprepare] at hprepared hconfined
  cases result with
  | error violation => exact hprepared
  | ok r =>
    have hactive : (v.frame f).isActive = true :=
      (frame_prepareWrite Frame.isActive (fun _ _ => rfl) (fun _ _ => rfl) hprepare f).trans
        (of_prepareWrite hprepare).1
    have hobserved := hprepared.afterObserver hconfined.orderly
      (Nat.lt_of_lt_of_le hf hconfined.length_frames) hactive o
    have hfound : (if (w.frame f).written.contains o then v
        else v.afterObserver f o).Balanced stamps := by
      split
      · exact hprepared
      · exact hobserved
    dsimp only [store]
    refine hfound.of_same (.modifyChain _ o fun c s hs => ?_)
    obtain ⟨t, ht, rfl⟩ := Chain.mem_modify.mp hs
    refine ⟨t, ht, ?_⟩
    split <;> rfl

/-! ## Calls -/

/-- The books stay balanced when a frame reads. -/
theorem readableIn (hw : w.Balanced stamps) (f : FrameId) (o : ObjectId) :
    (w.running (readableIn f o)).2.Balanced stamps := by
  rw [running, readableIn_run]
  cases (w.frame f).isActive with
  | false => exact hw
  | true =>
    cases w.select? o (w.frame f).view with
    | none => exact hw
    | some r =>
      cases hobserved : (w.frame f).options.observed with
      | false => exact hw
      | true => exact hw.of_same (.tell w fun _ => rfl)

/-- The books stay balanced when an object is read. -/
theorem readable (hw : w.Balanced stamps) (o : ObjectId) :
    (w.running (readable o)).2.Balanced stamps := by
  rw [running, readable_run]
  cases w.currentFrameOf? (w.object o).manager with
  | some f => exact hw.readableIn f o
  | none => cases w.selectCommitted? o <;> exact hw

/-- The books stay balanced when an object is announced. -/
theorem notifyCreated (hw : w.Balanced stamps) (o : ObjectId) :
    (w.notifyCreated o).Balanced stamps := by
  have hannounced :
      (w.modifyObject o fun object => { object with announced := true }).SameBooks w :=
    .modifyObject w o fun _ => ⟨rfl, fun r hr => ⟨r, hr, rfl⟩⟩
  rw [World.notifyCreated]
  dsimp only
  split
  · exact hw
  · exact ((hw.of_same hannounced).of_same (.count _ _ fun _ => by simp)).of_same
      (.tell _ fun _ => rfl)

/-- The books stay balanced when an object is trimmed on request. -/
theorem collect (hw : w.Balanced stamps) (m : ManagerId) (o : ObjectId) :
    (w.collect m o).2.Balanced stamps := by
  dsimp only [World.collect]
  exact (hw.of_same (.trimObject w o _)).of_same (.count _ m fun _ => by simp)

/-- The books stay balanced when a frame is entered. -/
theorem enterFrame (hw : w.Balanced stamps) (f : FrameId) :
    (w.enterFrame f).2.Balanced stamps := by
  have hheld : (w.hold f).SameBooks w :=
    .modifyFrame w f fun _ => ⟨rfl, rfl, List.Subset.refl _, fun _ => Or.inl⟩
  rw [World.enterFrame]
  split
  · exact hw
  · exact (hw.of_same hheld).of_same (.setCurrent _ _)

/-- A call that opens no frame leaves the books balanced. -/
theorem actBy (hw : w.Balanced stamps) (ho : w.Orderly) (hm : m < w.managers.length)
    {call : Call α} (hknown : w.knows call = true) (hopens : ∀ options, call ≠ .openFrame options) :
    (w.actBy m call).2.Balanced stamps := by
  cases call with
  | openFrame options => exact absurd rfl (hopens options)
  | commit f => exact hw.commit ho (hasFrame_iff.mp hknown)
  | discard f => exact hw.discard (hasFrame_iff.mp hknown)
  | hold f =>
    exact hw.of_same (.modifyFrame w f fun _ => ⟨rfl, rfl, List.Subset.refl _, fun _ => Or.inl⟩)
  | drop f => exact hw.release (hasFrame_iff.mp hknown)
  | enter f => exact hw.enterFrame f
  | leave first =>
    obtain ⟨f, hf⟩ := Option.isSome_iff_exists.mp hknown
    dsimp only [World.actBy, act]
    rw [hf]
    exact (hw.of_same (.setCurrent w _)).release (ho.current f hf)
  | construct typeName merge initial => exact hw.newObject ho hm typeName merge initial
  | announce o => exact hw.notifyCreated o
  | read o => exact hw.readable o
  | readIn f o => exact hw.readableIn f o
  | hasVisibleRecord o => exact hw
  | write o change =>
    dsimp only [World.actBy, act]
    cases hwriter : w.current with
    | none =>
      rw [writing_writable_none hwriter]
      exact hw
    | some f =>
      rw [writing_writable hwriter]
      exact hw.writing ho (ho.current f hwriter) (hasObject_iff.mp hknown) change
  | writeIn f o change =>
    obtain ⟨hf, hmade⟩ := Bool.and_eq_true_iff.mp hknown
    exact hw.writing ho (hasFrame_iff.mp hf) (hasObject_iff.mp hmade) change
  | collect o => exact hw.collect m o

end Balanced

/-! ## Requests -/

/-- The stamp of the frame that a request opens, if it opens one. -/
def openingIn (w : World α) : Request α → List (ManagerId × Visibility)
  | .call m (.openFrame options) =>
    match (w.performBy m (.openFrame options)).1 with
    | .opened (.ok _) => [w.nextStamp m]
    | _ => []
  | _ => []

/-- The stamps of the frames that requests open, in order. -/
def openings (w : World α) : List (Request α) → List (ManagerId × Visibility)
  | [] => []
  | request :: rest => w.openingIn request ++ (w.serve request).openings rest

/-- To open a frame in a manager that there is is answered by what it comes to. -/
theorem performBy_openFrame (hm : m < w.managers.length) (options : FrameOptions) :
    w.performBy m (.openFrame options) =
      (.opened (w.openFrame m options).1, (w.openFrame m options).2) := by
  have hknown : (w.knows (.openFrame options) && m < w.managers.length) = true := by
    simp [knows, hm]
  rw [performBy, if_pos hknown]
  rfl

/-- No frame is opened in a manager that there is not. -/
theorem performBy_openFrame_of_not (hm : ¬ m < w.managers.length) (options : FrameOptions) :
    w.performBy m (.openFrame options) = (.unknown, w) := by
  rw [performBy, if_neg (by simp [hm])]

namespace Balanced

/-- A new manager has no frames. -/
theorem addManager (hw : w.Balanced stamps) (config : Config) :
    (w.addManager config).Balanced stamps := by
  have hself : (w.addManager config).manager w.managers.length = { config } := by
    simp [World.addManager, manager]
  have hother {k : ManagerId} (hk : k ≠ w.managers.length) :
      (w.addManager config).manager k = w.manager k := by
    simp only [World.addManager, manager]
    rcases Nat.lt_or_gt_of_ne hk with hlt | hgt
    · rw [List.getElem?_append_left hlt]
    · have hlength : (w.managers ++ [({ config } : Manager)]).length ≤ k := by
        rw [List.length_append]
        exact hgt
      rw [List.getElem?_eq_none hlength, List.getElem?_eq_none (Nat.le_of_lt hgt)]
  have hdefault : w.manager w.managers.length = {} := by
    rw [manager, List.getElem?_eq_none (Nat.le_refl _)]
    rfl
  have hsame (k : ManagerId) : ((w.addManager config).manager k).next = (w.manager k).next ∧
      ((w.addManager config).manager k).openTable = (w.manager k).openTable ∧
      ((w.addManager config).manager k).counters = (w.manager k).counters := by
    by_cases hk : k = w.managers.length
    · rw [hk, hself, hdefault]
      exact ⟨rfl, rfl, rfl⟩
    · rw [hother hk]
      exact ⟨rfl, rfl, rfl⟩
  have hnone : w.openFrames w.managers.length = [] := by
    rw [List.eq_nil_iff_forall_not_mem]
    intro f hf
    obtain ⟨hlt, hmanager, -⟩ := mem_openFrames.mp hf
    exact Nat.lt_irrefl _ (hmanager ▸ (hw 0).known f hlt)
  refine fun m => { hw m with
    known := fun f hf => ?_
    table_eq := fun k => ?_
    limit := fun k => ?_
    past := fun f hf => ?_
    files := fun o r hr => ?_
    opened := fun k => ?_
    merged := fun k => ?_ }
  · exact Nat.lt_of_lt_of_le ((hw m).known f hf)
      (List.length_append ▸ Nat.le_add_right _ _)
  · rw [(hsame k).2.1]
    exact (hw m).table_eq k
  · by_cases hk : k = w.managers.length
    · have hnone' : (w.addManager config).openFrames w.managers.length = [] := hnone
      rw [hk, hnone']
      exact Nat.zero_le _
    · rw [hother hk]
      exact (hw m).limit k
  · rw [(hsame _).1]
    exact (hw m).past f hf
  · rw [Files, (hsame _).1]
    exact (hw m).files o r hr
  · rw [(hsame k).2.2]
    exact (hw m).opened k
  · rw [(hsame k).2.2]
    exact (hw m).merged k

/-- A request leaves the books balanced, with the stamp of the frame that it opens. -/
theorem serve (hw : w.Balanced stamps) (ho : w.Orderly) (request : Request α) :
    (w.serve request).Balanced (stamps ++ w.openingIn request) := by
  cases request with
  | addManager config =>
    have hnone : w.openingIn (.addManager config) = [] := rfl
    rw [hnone, List.append_nil]
    exact hw.addManager config
  | call m call =>
    by_cases hopens : ∃ options, call = .openFrame options
    · obtain ⟨options, rfl⟩ := hopens
      by_cases hm : m < w.managers.length
      · have hopened := hw.openFrame hm options
        rw [World.serve, openingIn, performBy_openFrame hm]
        split at hopened
        · rw [hopened, List.append_nil]
          exact hw
        · rw [hopened.1]
          exact hopened.2
      · rw [World.serve, openingIn, performBy_openFrame_of_not hm, List.append_nil]
        exact hw
    · have hnone : w.openingIn (.call m call) = [] := by
        cases call with
        | openFrame options => exact absurd ⟨options, rfl⟩ hopens
        | _ => rfl
      rw [hnone, List.append_nil, World.serve, performBy]
      split
      · next hknown =>
        obtain ⟨hknown, hm⟩ := Bool.and_eq_true_iff.mp hknown
        exact hw.actBy ho (of_decide_eq_true hm) hknown fun options heq => hopens ⟨options, heq⟩
      · exact hw

/-- The books balance through a run, with the stamps of the frames that it opens. -/
theorem serveAll (hw : w.Balanced stamps) (ho : w.Orderly) (requests : List (Request α)) :
    (w.serveAll requests).Balanced (stamps ++ w.openings requests) := by
  induction requests generalizing w stamps with
  | nil =>
    rw [openings, List.append_nil]
    exact hw
  | cons request rest ih =>
    have hrest := ih (hw.serve ho request) (orderly_serve ho request)
    rw [List.append_assoc] at hrest
    exact hrest

end Balanced

/-- Before anything is asked, there is nothing to balance. -/
theorem balanced_empty : ({} : World α).Balanced [] := fun _ =>
  { stamps_eq := rfl
    known := nofun
    table_eq := fun _ => (ite_self _).symm
    limit := fun _ => Nat.zero_le _
    past := nofun
    distinct := nofun
    fresh := nofun
    written := nofun
    files := fun _ _ hr => absurd hr List.not_mem_nil
    opened := fun _ => rfl
    merged := fun k => by
      rw [ite_self]
      rfl }

/-- **Manager bookkeeping.** Whatever is asked of a program's managers, and in whatever order
commits go through their objects, of each of them the following holds. The open table, and what is
published of it, has the generations of the open frames, with what was invalid to each of them;
there are no more of these than may be. No two frames share a generation, and the clock is past all
of them. It is past every record of an object as well, and a record of an open generation is of an
object that its frame has touched. As many frames were opened as were committed, were discarded, and
are open; as many objects were merged as the commit events report. Every frame was opened with the
next generation, and with those of the frames that were open; a frame that was refused changes
nothing. -/
theorem manager_bookkeeping (requests : List (Request α)) :
    let w := ({} : World α).serveAll requests
    (∀ m, let manager := w.manager m
      manager.openTable =
        (w.openFrames m).map (fun f => ((w.frame f).generation, (w.frame f).view.invalid)) ∧
      manager.openGenerations = w.openGenerations m ∧
      manager.published = w.openGenerations m ∧
      (w.openFrames m).length ≤ manager.config.maxOpenFrames ∧
      (∀ f < w.frames.length, (w.frame f).manager = m → (w.frame f).generation < manager.next ∧
        ∀ h < w.frames.length, (w.frame h).manager = m →
          (w.frame h).generation = (w.frame f).generation → h = f) ∧
      (∀ o, (w.object o).manager = m → ∀ r ∈ (w.object o).chain.records,
        r.generation < manager.next ∧ (r.generation ∈ manager.openGenerations →
          ∃ f ∈ w.openFrames m, (w.frame f).generation = r.generation ∧
            o ∈ (w.frame f).touched)) ∧
      manager.counters.opened =
        manager.counters.committed + manager.counters.discarded + (w.openFrames m).length ∧
      manager.counters.merged = w.reportedMerges m) ∧
    w.frames.map Frame.stamp = ({} : World α).openings requests ∧
    ∀ m < w.managers.length, ∀ options,
      let limit := (w.manager m).config.maxOpenFrames
      if limit ≤ (w.openFrames m).length then
        w.performBy m (.openFrame options) = (.opened (.error (.tooManyOpenFrames limit)), w)
      else (w.performBy m (.openFrame options)).1 = .opened (.ok w.frames.length) := by
  have hw := balanced_empty.serveAll orderly_empty requests
  rw [List.nil_append] at hw
  generalize ({} : World α).openings requests = stamps at hw
  dsimp only
  generalize ({} : World α).serveAll requests = w at hw
  refine ⟨fun m => ⟨hw.openTable_eq m, hw.openGenerations_eq m, ?_, (hw m).limit m, ?_, ?_, ?_, ?_⟩,
    (hw 0).stamps_eq, fun m hm options => ?_⟩
  · rw [(w.manager m).published_eq]
    exact hw.openGenerations_eq m
  · rintro f hf rfl
    exact ⟨(hw 0).past f hf, fun h hh hmanager => (hw 0).eq_of_generation_eq hh hf hmanager⟩
  · rintro o rfl r hr
    obtain ⟨hpast, htouched⟩ := (hw 0).files o r hr
    refine ⟨hpast, fun hopen => ?_⟩
    rw [hw.openGenerations_eq] at hopen
    obtain ⟨f, hf, hgen⟩ := List.mem_map.mp hopen
    exact ⟨f, hf, hgen, htouched f hf hgen⟩
  · exact (hw m).opened m
  · simpa using (hw m).merged m
  · have hopened := hw.openFrame hm options
    rw [performBy_openFrame hm]
    split at hopened
    · next hfull => rw [if_pos hfull, hopened]
    · next hroom => rw [if_neg hroom, hopened.1]

/-- A manager of two frames at most has merged the work of one frame into that of another, and has
opened two more. -/
def crowded : List (Request Nat) :=
  [.addManager { maxOpenFrames := 2 },
    .call 0 (.construct "Counter" (fun mine base theirs => some (mine + theirs - base)) 0),
    .call 0 (.openFrame {}), .call 0 (.openFrame {}), .call 0 (.writeIn 0 0 (· + 1)),
    .call 0 (.writeIn 1 0 (· + 2)), .call 0 (.commit 0), .call 0 (.commit 1),
    .call 0 (.openFrame {}), .call 0 (.openFrame {})]

/-- The books of the crowded manager; one more frame is refused and leaves them alone. -/
theorem manager_bookkeeping_of_crowded :
    let w := ({} : World Nat).serveAll crowded
    (w.manager 0).published = [5, 6] ∧ (w.manager 0).counters.opened = 4 ∧
      (w.manager 0).counters.merged = 1 ∧
      w.frames.map Frame.stamp =
        [(0, .ofFrame 2 []), (0, .ofFrame 3 [2]), (0, .ofFrame 5 []), (0, .ofFrame 6 [5])] ∧
      w.performBy 0 (.openFrame {}) = (.opened (.error (.tooManyOpenFrames 2)), w) := by
  intro w
  obtain ⟨hbooks, hstamps, hrefused⟩ := manager_bookkeeping crowded
  obtain ⟨-, -, hpublished, -, -, -, hopened, hmerged⟩ := hbooks 0
  have hlimit : (w.manager 0).config.maxOpenFrames = 2 := by decide +kernel
  have hfull := hrefused 0 (by decide +kernel) {}
  rw [hlimit, if_pos (by decide +kernel)] at hfull
  exact ⟨hpublished.trans (by decide +kernel), hopened.trans (by decide +kernel),
    hmerged.trans (by decide +kernel), hstamps.trans (by decide +kernel), hfull⟩

end World

end VersionedObjects.Store
