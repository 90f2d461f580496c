import VersionedObjects.Proofs.Store.History

/-!
# Touching objects

Which objects each operation has a frame touch. A frame touches what it makes and what it writes,
and also what it is refused to write because it sees no record to branch its own from: such a write
is noted before it is refused. Main statement: a call has frames touch nothing else.
-/

namespace VersionedObjects.Store

variable {α : Type}

/-- There was no record to branch from. -/
def Violation.lacksBase : Violation → Bool
  | .noBase .. => true
  | _ => false

/-- The call was refused because there was no record to branch from. -/
def Answer.lacksBase : Answer α → Bool
  | .record (.error violation) => violation.lacksBase
  | _ => false

namespace World

variable {u v w : World α}

/-- The call writes the object in the frame, and is refused because the frame sees no record to
branch its own from. -/
def LacksBase (w : World α) (call : Call α) (f : FrameId) (o : ObjectId) : Prop :=
  w.writer? call = some (f, o) ∧ (w.perform call).1.lacksBase = true

/-- From one world to a later one the frames touched what is noted, and nothing else, and no closed
frame was opened again. -/
structure Touches (v w : World α) (noted : FrameId → ObjectId → Prop) : Prop where
  length_eq : v.frames.length = w.frames.length
  mem_touched : ∀ f < w.frames.length, ∀ o,
    o ∈ (v.frame f).touched ↔ o ∈ (w.frame f).touched ∨ noted f o
  active : ∀ f < w.frames.length, (v.frame f).isActive = true → (w.frame f).isActive = true

namespace Touches

variable {noted later : FrameId → ObjectId → Prop}

/-- What was noted may be put in another way. -/
theorem congr (h : v.Touches w noted)
    (hiff : ∀ f < w.frames.length, ∀ o, noted f o ↔ later f o) : v.Touches w later := by
  refine ⟨h.length_eq, fun f hf o => ?_, h.active⟩
  rw [h.mem_touched f hf, hiff f hf]

/-- Frames that are the same touched nothing more. -/
theorem of_frames (h : v.frames = w.frames) : v.Touches w fun _ _ => False := by
  have hframe (f : FrameId) : v.frame f = w.frame f := by rw [frame, h, frame]
  refine ⟨congrArg List.length h, fun f _ o => ?_, fun f _ hactive => ?_⟩
  · rw [hframe, or_false]
  · rwa [← hframe]

/-- Where nothing happens nothing is touched. -/
theorem refl (w : World α) : w.Touches w fun _ _ => False :=
  of_frames rfl

/-- Two steps touch what the first and what the second one does. -/
theorem trans (h : v.Touches w noted) (h' : u.Touches v later) :
    u.Touches w fun f o => noted f o ∨ later f o := by
  have hlater {f : FrameId} (hf : f < w.frames.length) : f < v.frames.length :=
    h.length_eq.symm ▸ hf
  refine ⟨h'.length_eq.trans h.length_eq, fun f hf o => ?_, fun f hf hactive => ?_⟩
  · rw [h'.mem_touched f (hlater hf), h.mem_touched f hf, or_assoc]
  · exact h.active f hf (h'.active f (hlater hf) hactive)

/-- What comes after touches nothing more. -/
theorem trans_left (h : v.Touches w noted) (h' : u.Touches v fun _ _ => False) :
    u.Touches w noted :=
  (h.trans h').congr fun _ _ _ => or_iff_left id

/-- A frame is changed in neither what it touched nor its being open, or is closed. -/
theorem of_modifyFrame {f : FrameId} {g : Frame → Frame}
    (hframes : v.frames = (w.modifyFrame f g).frames)
    (htouched : ∀ frame, (g frame).touched = frame.touched)
    (hactive : ∀ frame, (g frame).isActive = true → frame.isActive = true) :
    v.Touches w fun _ _ => False := by
  have hframe (h : FrameId) (hh : h < w.frames.length) :
      v.frame h = w.frame h ∨ v.frame h = g (w.frame h) := by
    rw [frame, hframes, ← frame]
    by_cases hf : f < w.frames.length
    · rw [frame_modifyFrame hf]
      split
      · exact Or.inr rfl
      · exact Or.inl rfl
    · left
      rw [World.modifyFrame, List.modify_eq_self (Nat.le_of_not_lt hf)]
  refine ⟨?_, fun h hh o => ?_, fun h hh => ?_⟩
  · rw [hframes, length_frames_modifyFrame]
  · rw [or_false]
    rcases hframe h hh with heq | heq <;> rw [heq]
    rw [htouched]
  · rcases hframe h hh with heq | heq <;> rw [heq]
    · exact id
    · exact hactive _

end Touches

/-! ## What each operation touches -/

/-- To discard a frame touches nothing. -/
theorem touches_discard (w : World α) (f : FrameId) :
    (w.discard f).Touches w fun _ _ => False := by
  rw [discard]
  split
  · exact .of_modifyFrame (congrArg Outline.frames (outline_discardActive w f)) (fun _ => rfl)
      fun _ hopen => by cases hopen
  · exact .refl w

/-- To let go of a frame touches nothing. -/
theorem touches_release (w : World α) (f : FrameId) :
    (w.release f).Touches w fun _ _ => False := by
  have hletGo : (w.letGo f).Touches w fun _ _ => False :=
    .of_modifyFrame rfl (fun _ => rfl) fun _ => id
  rw [release, ← letGo]
  split
  · exact hletGo.trans_left (touches_discard _ f)
  · exact hletGo

/-- To commit a frame touches nothing. -/
theorem touches_commitActive (hw : w.Tidy) {f : FrameId} (hf : f < w.frames.length)
    (hactive : (w.frame f).isActive = true) :
    (w.commitActive f).2.Touches w fun _ _ => False := by
  refine .of_modifyFrame (congrArg Outline.frames (commitActive_spec hw hf hactive).2.2)
    (fun _ => rfl) fun _ => ?_
  unfold stateAfterCommit
  split <;> nofun

/-- To enter a frame touches nothing. -/
theorem touches_enterFrame (w : World α) (f : FrameId) :
    (w.enterFrame f).2.Touches w fun _ _ => False := by
  rw [enterFrame]
  split
  · exact .refl w
  · exact .of_modifyFrame rfl (fun _ => rfl) fun _ => id

/-- To read in a frame touches nothing. -/
theorem touches_readableIn (w : World α) (f : FrameId) (o : ObjectId) :
    (w.running (readableIn f o)).2.Touches w fun _ _ => False := by
  apply Touches.of_frames
  rw [running, readableIn_run]
  cases (w.frame f).isActive with
  | false => rfl
  | true =>
    cases w.select? o (w.frame f).view with
    | none => rfl
    | some r => cases hobserved : (w.frame f).options.observed <;> rfl

/-- To read an object touches nothing. -/
theorem touches_readable (w : World α) (o : ObjectId) :
    (w.running (readable o)).2.Touches w fun _ _ => False := by
  rw [running, readable_run]
  cases w.currentFrameOf? (w.object o).manager with
  | some f => exact touches_readableIn w f o
  | none =>
    cases w.selectCommitted? o with
    | none => exact .refl w
    | some r => exact .refl w

/-- To touch an object touches that object. -/
theorem touches_touch {f : FrameId} (hf : f < w.frames.length) (o : ObjectId) :
    (w.touch f o).Touches w fun h p => h = f ∧ p = o := by
  have hframe := frame_modifyFrame hf fun frame =>
    if frame.touched.contains o then frame else { frame with touched := frame.touched ++ [o] }
  refine ⟨length_frames_modifyFrame .., fun h hh p => ?_, fun h hh => ?_⟩
  · rw [touch, hframe]
    by_cases hhf : h = f
    · rw [if_pos hhf]
      split
      · next hmem =>
        have hmem := List.contains_iff_mem.mp hmem
        exact ⟨Or.inl, fun hp => hp.elim id fun hp => hp.2 ▸ hmem⟩
      · simp [hhf]
    · simp [hhf]
  · rw [touch, hframe]
    split
    · split <;> exact id
    · exact id

/-- A new object is touched by the frame for new objects. -/
theorem touches_newObject (hw : w.Tidy) (typeName : String) (merge : α → α → α → Option α)
    (initial : α) : (w.newObject 0 typeName merge initial).2.Touches w fun f o =>
      w.makingFrame? 0 = some f ∧ o = w.objects.length := by
  cases hmaking : w.makingFrame? 0 with
  | none =>
    rw [newObject_outside hmaking]
    refine (Touches.of_frames ?_).congr fun f _ o => ?_
    · rfl
    · exact iff_of_false id nofun
  | some g =>
    obtain ⟨hg, -⟩ := of_makingFrame? hw hmaking
    rw [newObject_making hmaking]
    dsimp only
    generalize hadded : w.addObject _ = v
    have hframes : v.frames = w.frames := hadded ▸ rfl
    have hadds : v.Touches w fun _ _ => False := .of_frames hframes
    refine (hadds.trans (touches_touch (hadds.length_eq.symm ▸ hg) _)).congr fun f _ o => ?_
    rw [false_or, Option.some.injEq, @eq_comm _ g]

/-- A noted write touches its object. -/
theorem touches_noteWrite (hw : w.Tidy) {f : FrameId} (hf : f < w.frames.length) (o : ObjectId) :
    (w.noteWrite f o).Touches w fun h p => h = f ∧ p = o := by
  cases hwritten : (w.frame f).written.contains o with
  | true =>
    rw [noteWrite, if_pos hwritten]
    refine ⟨rfl, fun h hh p => ⟨Or.inl, ?_⟩, fun _ _ => id⟩
    rintro (hp | ⟨rfl, rfl⟩)
    · exact hp
    · exact (hw.fits h hh).written p (List.contains_iff_mem.mp hwritten)
  | false =>
    rw [noteWrite_of_notMem hwritten]
    exact (touches_touch hf o).trans_left (.of_modifyFrame rfl (fun _ => rfl) fun _ => id)

/-- To prepare a write touches the object. -/
theorem touches_prepareWrite (hw : w.Tidy) {f : FrameId} (hf : f < w.frames.length) {o : ObjectId}
    {r : Record α} (h : w.prepareWrite f o = (.ok r, v)) :
    v.Touches w fun h p => h = f ∧ p = o :=
  (touches_noteWrite hw hf o).trans_left
    (.of_frames (congrArg Outline.frames (outline_prepareWrite h)))

/-- To tell the observer of a write touches nothing. -/
theorem touches_tellWrite (w : World α) (f : FrameId) (o : ObjectId) :
    (w.tellWrite f o).Touches w fun _ _ => False :=
  .of_modifyFrame rfl (fun _ => rfl) fun _ => id

/-- What the observer does touches nothing. -/
theorem touches_afterObserver (hw : w.Tidy) {f : FrameId} (hf : f < w.frames.length)
    (hactive : (w.frame f).isActive = true) (o : ObjectId) :
    (w.afterObserver f o).Touches w fun _ _ => False := by
  have htold := touches_tellWrite w f o
  have hactive' : ((w.tellWrite f o).frame f).isActive = true := by
    rw [frame_tellWrite hf]
    exact hactive
  rw [afterObserver]
  split
  · split
    · exact htold
    · exact htold.trans_left (touches_commitActive (follows_tellWrite hw f o).tidy
        (htold.length_eq.symm ▸ hf) hactive')
    · exact htold.trans_left (.of_modifyFrame
        (congrArg Outline.frames (outline_discardActive _ f)) (fun _ => rfl)
        fun _ hopen => by cases hopen)
  · exact .refl w

/-- A refused write was noted if it lacks a base, and else leaves the world as it was. -/
theorem eq_of_prepareWrite_error {f : FrameId} {o : ObjectId} {violation : Violation}
    (h : w.prepareWrite f o = (.error violation, v)) :
    v = if violation.lacksBase then w.noteWrite f o else w := by
  unfold prepareWrite at h
  dsimp only at h
  split at h
  · cases h
    rfl
  split at h
  · cases h
    rfl
  split at h
  · cases h
    rfl
  split at h
  · cases h
  split at h
  · cases h
    rfl
  · cases h

/-- A write touches its object unless it is refused for another reason than a missing base. -/
theorem touches_writing (hw : w.Tidy) {f : FrameId} (hf : f < w.frames.length) {o : ObjectId}
    (ho : o < w.objects.length) (change : α → α) :
    (w.writing (writableIn f o) o change).2.Touches w fun h p => (h = f ∧ p = o) ∧
      ((Answer.record (w.writing (writableIn f o) o change).1).hasRecord = true ∨
        (Answer.record (w.writing (writableIn f o) o change).1).lacksBase = true) := by
  rw [writing_fst, writing, writableIn_run]
  cases hprepare : w.prepareWrite f o with
  | mk result v =>
  cases result with
  | error violation =>
    dsimp only [Answer.hasRecord, Answer.lacksBase]
    rw [eq_of_prepareWrite_error hprepare]
    cases violation.lacksBase with
    | true => exact (touches_noteWrite hw hf o).congr fun _ _ _ => by simp
    | false => exact (Touches.refl w).congr fun _ _ _ => by simp
  | ok r =>
    have hlinked := touches_prepareWrite hw hf hprepare
    have hactive : (v.frame f).isActive = true :=
      (frame_prepareWrite Frame.isActive (fun _ _ => rfl) (fun _ _ => rfl) hprepare f).trans
        (of_prepareWrite hprepare).1
    have hobserved := touches_afterObserver (follows_prepareWrite hw hf ho hprepare).tidy
      (hlinked.length_eq.symm ▸ hf) hactive o
    have hnoted : v.Touches w fun h p => (h = f ∧ p = o) ∧
        ((Answer.record (.ok r : Except Violation (Record α))).hasRecord = true ∨
          (Answer.record (.ok r : Except Violation (Record α))).lacksBase = true) :=
      hlinked.congr fun _ _ _ => by simp [Answer.hasRecord]
    dsimp only
    split
    · exact hnoted.trans_left (.of_frames rfl)
    · exact (hnoted.trans_left hobserved).trans_left (.of_frames rfl)

/-! ## What a call touches -/

/-- A call that opens no frame touches the object that it makes, writes, or is refused to write for
want of a base. -/
theorem touches_step (hw : w.Tidy) {call : Call α} (hopens : ∀ options, call ≠ .openFrame options) :
    (w.step call).Touches w fun f o => w.Writes call f o ∨ w.LacksBase call f o := by
  have hnone (h : w.writer? call = none) (hsame : (w.step call).Touches w fun _ _ => False) :
      (w.step call).Touches w fun f o => w.Writes call f o ∨ w.LacksBase call f o :=
    hsame.congr fun f _ o => by simp [Writes, LacksBase, h]
  cases hknown : w.knows call with
  | false =>
    have hperform : w.perform call = (.unknown, w) := by
      rw [perform, hknown, if_neg Bool.false_ne_true]
    rw [step, hperform]
    exact (Touches.refl w).congr fun f _ o => by
      simp [Writes, LacksBase, hperform, Answer.hasRecord, Answer.lacksBase]
  | true =>
  have hperform : w.perform call = w.act call := if_pos hknown
  have hwriting {f : FrameId} (hf : f < w.frames.length) {o : ObjectId}
      (ho : o < w.objects.length) (change : α → α) (hwriter : w.writer? call = some (f, o))
      (hact : w.act call = (.record (w.writing (writableIn f o) o change).1,
        (w.writing (writableIn f o) o change).2)) :
      (w.step call).Touches w fun f o => w.Writes call f o ∨ w.LacksBase call f o := by
    rw [step, hperform, hact]
    refine (touches_writing hw hf ho change).congr fun h _ p => ?_
    rw [Writes, LacksBase, ← and_or_left, hwriter, hperform, hact, Option.some.injEq,
      Prod.mk.injEq, @eq_comm _ f, @eq_comm _ o]
  have hstep : w.step call = (w.act call).2 := by rw [step, hperform]
  cases call with
  | openFrame options => exact absurd rfl (hopens options)
  | commit f =>
    refine hnone rfl ?_
    rw [hstep]
    dsimp only [act, World.commit]
    split
    · next hactive => exact touches_commitActive hw (hasFrame_iff.mp hknown) hactive
    · exact .refl w
  | discard f => exact hnone rfl (hstep ▸ touches_discard w f)
  | hold f => exact hnone rfl (hstep ▸ .of_modifyFrame rfl (fun _ => rfl) fun _ => id)
  | drop f => exact hnone rfl (hstep ▸ touches_release w f)
  | enter f => exact hnone rfl (hstep ▸ touches_enterFrame w f)
  | leave first =>
    refine hnone rfl (hstep ▸ (Touches.of_frames ?_).trans_left (touches_release _ _))
    rfl
  | construct typeName merge initial =>
    rw [hstep]
    refine (touches_newObject hw typeName merge initial).congr fun f _ o => ?_
    rw [Writes, LacksBase, ← and_or_left, hperform, writer?]
    simp only [act, Answer.hasRecord, true_or, and_true, Option.map_eq_some_iff,
      Prod.mk.injEq]
    constructor
    · rintro ⟨hmaking, rfl⟩
      exact ⟨f, hmaking, rfl, rfl⟩
    · rintro ⟨g, hmaking, rfl, rfl⟩
      exact ⟨hmaking, rfl⟩
  | announce o =>
    exact hnone rfl (hstep ▸ .of_frames (congrArg Outline.frames (outline_notifyCreated w o)))
  | read o => exact hnone rfl (hstep ▸ touches_readable w o)
  | readIn f o => exact hnone rfl (hstep ▸ touches_readableIn w f o)
  | hasVisibleRecord o => exact hnone rfl (hstep ▸ .refl w)
  | write o change =>
    cases hcurrent : w.current with
    | none =>
      refine hnone (by rw [writer?, hcurrent]; rfl) ?_
      rw [hstep]
      dsimp only [act]
      rw [writing_writable_none hcurrent]
      exact .refl w
    | some f =>
      refine hwriting (hw.current f hcurrent) (hasObject_iff.mp hknown) change
        (by rw [writer?, hcurrent]; rfl) ?_
      dsimp only [act]
      rw [writing_writable hcurrent]
  | writeIn f o change =>
    obtain ⟨hf, ho⟩ := Bool.and_eq_true_iff.mp hknown
    exact hwriting (hasFrame_iff.mp hf) (hasObject_iff.mp ho) change rfl rfl
  | collect o =>
    exact hnone rfl (hstep ▸ .of_frames (congrArg Outline.frames (outline_collect w 0 o)))

/-- Only a frame that exists writes or is refused to. -/
theorem lt_of_lacksBase (hw : w.Tidy) {call : Call α} {f : FrameId} {o : ObjectId}
    (h : w.LacksBase call f o) : f < w.frames.length := by
  obtain ⟨hwriter, hlacks⟩ := h
  cases hknown : w.knows call with
  | false =>
    rw [perform, hknown, if_neg Bool.false_ne_true] at hlacks
    cases hlacks
  | true =>
    cases call with
    | construct typeName merge initial =>
      rw [perform, if_pos hknown] at hlacks
      cases hlacks
    | write p change =>
      obtain ⟨g, hg, heq⟩ := Option.map_eq_some_iff.mp hwriter
      obtain ⟨rfl, -⟩ := Prod.mk.inj heq
      exact hw.current g hg
    | writeIn g p change =>
      obtain ⟨rfl, rfl⟩ := Prod.mk.inj (Option.some.inj hwriter)
      exact hasFrame_iff.mp (Bool.and_eq_true_iff.mp hknown).1
    | _ => cases hwriter

/-! ## Refused writes -/

/-- A write that is noted is one of those of its frame, and of no other. -/
theorem mem_written_noteWrite {f : FrameId} (hf : f < w.frames.length) (o : ObjectId)
    (h : FrameId) (p : ObjectId) :
    p ∈ ((w.noteWrite f o).frame h).written ↔ p ∈ (w.frame h).written ∨ h = f ∧ p = o := by
  cases hwritten : (w.frame f).written.contains o with
  | true =>
    rw [noteWrite, if_pos hwritten, or_iff_left_of_imp]
    rintro ⟨rfl, rfl⟩
    exact List.contains_iff_mem.mp hwritten
  | false =>
    have hf' : f < (w.touch f o).frames.length := (length_frames_modifyFrame ..).symm ▸ hf
    have hsame : ((w.touch f o).frame h).written = (w.frame h).written := by
      rw [touch, frame_modifyFrame hf]
      split
      · split <;> rfl
      · rfl
    rw [noteWrite_of_notMem hwritten, frame_modifyFrame hf', ← hsame]
    by_cases hh : h = f <;> simp [hh]

/-- A refused write leaves the world as it was, or with the write noted if it lacked a base. -/
theorem step_of_refused {call : Call α} {f : FrameId} {o : ObjectId} {violation : Violation}
    (hwriter : w.writer? call = some (f, o))
    (hrefused : (w.perform call).1 = .record (.error violation)) :
    w.step call = if violation.lacksBase then w.noteWrite f o else w := by
  have hwriting (change : α → α)
      (h : w.writing (writableIn f o) o change = (.error violation, w.step call)) :
      w.step call = if violation.lacksBase then w.noteWrite f o else w := by
    apply eq_of_prepareWrite_error (o := o)
    rw [writing, writableIn_run] at h
    cases hprepare : w.prepareWrite f o with
    | mk result v =>
    rw [hprepare] at h
    cases result with
    | error other => exact h
    | ok r => cases (Prod.mk.inj h).1
  cases hknown : w.knows call with
  | false =>
    rw [perform, hknown, if_neg Bool.false_ne_true] at hrefused
    cases hrefused
  | true =>
    have hperform : w.perform call = w.act call := if_pos hknown
    cases call with
    | construct typeName merge initial =>
      rw [hperform] at hrefused
      cases hrefused
    | write p change =>
      obtain ⟨g, hcurrent, heq⟩ := Option.map_eq_some_iff.mp hwriter
      obtain ⟨rfl, rfl⟩ := Prod.mk.inj heq
      rw [hperform] at hrefused
      refine hwriting change ?_
      rw [step, hperform, ← writing_writable hcurrent]
      exact Prod.ext (Answer.record.inj hrefused) rfl
    | writeIn g p change =>
      obtain ⟨rfl, rfl⟩ := Prod.mk.inj (Option.some.inj hwriter)
      rw [hperform] at hrefused
      refine hwriting change ?_
      rw [step, hperform]
      exact Prod.ext (Answer.record.inj hrefused) rfl
    | _ => cases hwriter

end World

end VersionedObjects.Store
