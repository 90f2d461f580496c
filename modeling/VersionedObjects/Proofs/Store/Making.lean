import VersionedObjects.Proofs.Store.History

/-!
# Making objects

Objects are numbered in the order in which they are made, and none ever goes away. Main statements:
a call makes an object exactly when it constructs one, and an effect of a call that makes an object
makes the next one.
-/

namespace VersionedObjects.Store

variable {α : Type}

/-- The call makes an object. -/
def Call.constructs : Call α → Bool
  | .construct .. => true
  | _ => false

/-- The object that an effect makes. -/
def Effect.makes? : Effect α → Option ObjectId
  | .founded o _ _ | .created o _ => some o
  | _ => none

namespace World

variable {w : World α}

/-! ## Effects -/

/-- No effect of a commit makes an object. -/
theorem makes?_of_mem_commitEffects {f : FrameId} {effect : Effect α}
    (h : effect ∈ w.commitEffects f) : effect.makes? = none := by
  unfold commitEffects at h
  split at h
  · rw [List.mem_singleton.mp h]
    rfl
  · rcases List.mem_cons.mp h with rfl | h
    · rfl
    · split at h
      · obtain ⟨o, -, rfl⟩ := List.mem_map.mp h
        rfl
      · cases h

/-- No effect of a write makes an object. -/
theorem makes?_of_mem_writeEffects {f : FrameId} {o : ObjectId} {change : α → α}
    {effect : Effect α} (h : effect ∈ w.writeEffects f o change) : effect.makes? = none := by
  unfold writeEffects at h
  split at h
  · cases h
  · next r v hprepare =>
    rw [List.mem_append, List.mem_append] at h
    rcases h with h | h | h
    · unfold linkEffects at h
      split at h
      · cases h
      · rw [List.mem_singleton.mp h]
        rfl
    · split at h
      · cases h
      · unfold observerEffects at h
        split at h
        · split at h
          · cases h
          · exact makes?_of_mem_commitEffects h
          · rw [List.mem_singleton.mp h]
            rfl
        · cases h
    · rw [List.mem_singleton.mp h]
      rfl

/-- An effect that makes an object makes the next one. -/
theorem eq_length_of_makes? {call : Call α} {effect : Effect α} {o : ObjectId}
    (h : effect ∈ w.effects call) (hmakes : effect.makes? = some o) : o = w.objects.length := by
  obtain ⟨-, horigin⟩ := origin_of_mem_effects h
  cases horigin with
  | opening | discarding | collecting => cases hmakes
  | committing _ h =>
    rw [makes?_of_mem_commitEffects h] at hmakes
    cases hmakes
  | making typeName merge initial =>
    rw [makingEffect] at hmakes
    split at hmakes <;> exact (Option.some.inj hmakes).symm
  | writing _ h =>
    rw [makes?_of_mem_writeEffects h] at hmakes
    cases hmakes

/-! ## The number of objects -/

/-- To discard a frame makes no object. -/
theorem length_objects_discard (w : World α) (f : FrameId) :
    (w.discard f).objects.length = w.objects.length := by
  rw [discard]
  split
  · exact length_objects_of_identities (by rw [outline_discardActive]; rfl)
  · rfl

/-- To let go of a frame makes no object. -/
theorem length_objects_release (w : World α) (f : FrameId) :
    (w.release f).objects.length = w.objects.length := by
  rw [release, ← letGo]
  split
  · exact length_objects_discard (w.letGo f) f
  · rfl

/-- To open a frame makes no object. -/
theorem length_objects_openFrame (hw : w.Tidy) (options : FrameOptions) :
    (w.openFrame 0 options).2.objects.length = w.objects.length := by
  by_cases hfull : w.outline.config.maxOpenFrames ≤ w.ledger.table.length
  · rw [openFrame_full options hfull]
  · obtain ⟨-, -, houtline⟩ := openFrame_spec hw.sole options hfull
    exact length_objects_of_identities (by rw [houtline])

/-- To make an object makes one. -/
theorem length_objects_newObject (w : World α) (typeName : String)
    (merge : α → α → α → Option α) (initial : α) :
    (w.newObject 0 typeName merge initial).2.objects.length = w.objects.length + 1 := by
  cases hmaking : w.makingFrame? 0 with
  | none =>
    rw [newObject_outside hmaking]
    exact List.length_append
  | some f =>
    rw [newObject_making hmaking]
    exact List.length_append

/-- To read in a frame makes no object. -/
theorem length_objects_readableIn (w : World α) (f : FrameId) (o : ObjectId) :
    (w.running (readableIn f o)).2.objects.length = w.objects.length := by
  rw [running, readableIn_run]
  cases (w.frame f).isActive with
  | false => rfl
  | true =>
    cases w.select? o (w.frame f).view with
    | none => rfl
    | some r => cases hobserved : (w.frame f).options.observed <;> rfl

/-- To read an object makes no object. -/
theorem length_objects_readable (w : World α) (o : ObjectId) :
    (w.running (readable o)).2.objects.length = w.objects.length := by
  rw [running, readable_run]
  cases w.currentFrameOf? (w.object o).manager with
  | some f => exact length_objects_readableIn w f o
  | none => cases w.selectCommitted? o <;> rfl

/-- To write an object makes none. -/
theorem length_objects_writing (hw : w.Tidy) {f : FrameId} (hf : f < w.frames.length)
    {o : ObjectId} (ho : o < w.objects.length) (change : α → α) :
    (w.writing (writableIn f o) o change).2.objects.length = w.objects.length := by
  rw [writing, writableIn_run]
  cases hprepare : w.prepareWrite f o with
  | mk result v =>
  cases result with
  | error violation =>
    rcases of_prepareWrite_error hprepare with rfl | rfl
    · rfl
    · exact length_objects_noteWrite w f o
  | ok r =>
    have hlength := length_objects_prepareWrite hprepare
    have hactive : (v.frame f).isActive = true :=
      (frame_prepareWrite Frame.isActive (fun _ _ => rfl) (fun _ _ => rfl) hprepare f).trans
        (of_prepareWrite hprepare).1
    have hobserved := length_objects_afterObserver (follows_prepareWrite hw hf ho hprepare).tidy
      ((length_frames_prepareWrite hprepare).symm ▸ hf) hactive o
    dsimp only
    rw [store, modifyChain, length_objects_modifyObject]
    split
    · exact hlength
    · exact hobserved.trans hlength

/-- There is one more object after a call that makes one, and as many after any other call. -/
theorem length_objects_step (hw : w.Tidy) (call : Call α) :
    (w.step call).objects.length = w.objects.length + if call.constructs then 1 else 0 := by
  unfold step perform
  cases hknown : w.knows call with
  | false =>
    have hother : call.constructs = false := by
      cases call with
      | construct => cases hknown
      | _ => rfl
    rw [hother]
    rfl
  | true =>
  rw [if_pos rfl]
  cases call with
  | openFrame options => exact length_objects_openFrame hw options
  | commit f =>
    dsimp only [act, World.commit]
    split
    · next hactive =>
      have houtline := (commitActive_spec hw (hasFrame_iff.mp hknown) hactive).2.2
      exact length_objects_of_identities (by rw [houtline]; rfl)
    · rfl
  | discard f => exact length_objects_discard w f
  | hold f => rfl
  | drop f => exact length_objects_release w f
  | enter f =>
    dsimp only [act, enterFrame]
    split <;> rfl
  | leave first => exact length_objects_release _ _
  | construct typeName merge initial => exact length_objects_newObject w typeName merge initial
  | announce o =>
    exact length_objects_of_identities (congrArg Outline.identities (outline_notifyCreated w o))
  | read o => exact length_objects_readable w o
  | readIn f o => exact length_objects_readableIn w f o
  | hasVisibleRecord o => rfl
  | write o change =>
    dsimp only [act]
    cases hcurrent : w.current with
    | none =>
      rw [writing_writable_none hcurrent]
      rfl
    | some f =>
      rw [writing_writable hcurrent]
      exact length_objects_writing hw (hw.current f hcurrent) (hasObject_iff.mp hknown) change
  | writeIn f o change =>
    obtain ⟨hf, ho⟩ := Bool.and_eq_true_iff.mp hknown
    exact length_objects_writing hw (hasFrame_iff.mp hf) (hasObject_iff.mp ho) change
  | collect o =>
    exact length_objects_of_identities (congrArg Outline.identities (outline_collect w 0 o))

/-- No object goes away. -/
theorem length_objects_le_step (hw : w.Tidy) (call : Call α) :
    w.objects.length ≤ (w.step call).objects.length := by
  rw [length_objects_step hw]
  exact Nat.le_add_right _ _

/-- No object goes away in a run. -/
theorem length_objects_le_after (hw : w.Tidy) (calls : List (Call α)) :
    w.objects.length ≤ (w.after calls).objects.length := by
  induction calls generalizing w with
  | nil => exact Nat.le_refl _
  | cons call rest ih => exact Nat.le_trans (length_objects_le_step hw call) (ih (hw.step call))

end World

end VersionedObjects.Store
