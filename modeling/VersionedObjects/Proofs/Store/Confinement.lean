import VersionedObjects.Proofs.Store.Calls

/-!
# Confinement to a manager

Worlds of several managers. Each operation that is made through a manager changes its clock and
table, its frames and its objects, and nothing that belongs to another one: a frame touches only
objects of its own manager, because a write to any other object is refused before it is noted.
Main statement: every call is confined to the manager through which it is made, except for trimming
an object of another manager.
-/

namespace VersionedObjects.Store

variable {α : Type}

namespace World

variable {u v w : World α} {m : ManagerId}

/-- The objects were made in the manager. -/
def Owns (w : World α) (m : ManagerId) (objects : List ObjectId) : Prop :=
  ∀ o ∈ objects, o < w.objects.length ∧ (w.object o).manager = m

/-- Every frame touched only objects of its own manager, and every chain ascends. -/
structure Orderly (w : World α) : Prop where
  current : ∀ f, w.current = some f → f < w.frames.length
  touched : ∀ f < w.frames.length, w.Owns (w.frame f).manager (w.frame f).touched
  ascending : ∀ o, (w.object o).chain.Ascending

/-- An orderly world that came from another one, where only the manager, its frames and its objects
were changed. -/
structure Confined (v w : World α) (m : ManagerId) : Prop where
  orderly : v.Orderly
  managers : ∀ k ≠ m, v.manager k = w.manager k
  length_frames : w.frames.length ≤ v.frames.length
  frames : ∀ f < w.frames.length, (v.frame f).manager = (w.frame f).manager ∧
    ((w.frame f).manager ≠ m → v.frame f = w.frame f)
  length_objects : w.objects.length ≤ v.objects.length
  objects : ∀ o < w.objects.length, (v.object o).manager = (w.object o).manager ∧
    ((w.object o).manager ≠ m → v.object o = w.object o)

namespace Confined

/-- Where nothing was changed the change is confined to any manager. -/
theorem refl (hw : w.Orderly) (m : ManagerId) : w.Confined w m :=
  ⟨hw, fun _ _ => rfl, Nat.le_refl _, fun _ _ => ⟨rfl, fun _ => rfl⟩, Nat.le_refl _,
    fun _ _ => ⟨rfl, fun _ => rfl⟩⟩

/-- Two changes that are confined to a manager are so together. -/
theorem trans (h : v.Confined w m) (h' : u.Confined v m) : u.Confined w m where
  orderly := h'.orderly
  managers k hk := (h'.managers k hk).trans (h.managers k hk)
  length_frames := Nat.le_trans h.length_frames h'.length_frames
  frames f hf := by
    obtain ⟨hmanager, hsame⟩ := h.frames f hf
    obtain ⟨hmanager', hsame'⟩ := h'.frames f (Nat.lt_of_lt_of_le hf h.length_frames)
    refine ⟨hmanager'.trans hmanager, fun hother => ?_⟩
    exact (hsame' (hmanager.symm ▸ hother)).trans (hsame hother)
  length_objects := Nat.le_trans h.length_objects h'.length_objects
  objects o ho := by
    obtain ⟨hmanager, hsame⟩ := h.objects o ho
    obtain ⟨hmanager', hsame'⟩ := h'.objects o (Nat.lt_of_lt_of_le ho h.length_objects)
    refine ⟨hmanager'.trans hmanager, fun hother => ?_⟩
    exact (hsame' (hmanager.symm ▸ hother)).trans (hsame hother)

/-- Objects stay with their manager. -/
theorem owns (h : v.Confined w m) {k : ManagerId} {objects : List ObjectId}
    (howns : w.Owns k objects) : v.Owns k objects := by
  intro o ho
  obtain ⟨hmade, howner⟩ := howns o ho
  exact ⟨Nat.lt_of_lt_of_le hmade h.length_objects, (h.objects o hmade).1.trans howner⟩

/-- A frame stays with its manager. -/
theorem frame_manager (h : v.Confined w m) {f : FrameId} (hf : f < w.frames.length) :
    (v.frame f).manager = (w.frame f).manager :=
  (h.frames f hf).1

end Confined

/-! ## Primitive changes -/

/-- To change one manager leaves the others alone. -/
theorem manager_modifyManager_of_ne {k : ManagerId} (hk : k ≠ m) (w : World α)
    (f : Manager → Manager) : (w.modifyManager m f).manager k = w.manager k := by
  simp [manager, modifyManager, hk.symm]

/-- A manager may be changed in any way. -/
theorem confined_modifyManager (hw : w.Orderly) (m : ManagerId) (f : Manager → Manager) :
    (w.modifyManager m f).Confined w m where
  orderly := ⟨hw.current, hw.touched, hw.ascending⟩
  managers _ hk := manager_modifyManager_of_ne hk w f
  length_frames := Nat.le_refl _
  frames _ _ := ⟨rfl, fun _ => rfl⟩
  length_objects := Nat.le_refl _
  objects _ _ := ⟨rfl, fun _ => rfl⟩

/-- What is counted is confined to the manager that counts. -/
theorem confined_count (hw : w.Orderly) (m : ManagerId) (f : Counters → Counters) :
    (w.count m f).Confined w m :=
  confined_modifyManager hw m _

/-- To tell observers something changes no manager at all. -/
theorem confined_tell (hw : w.Orderly) (m : ManagerId) (event : Event) :
    (w.tell event).Confined w m :=
  { Confined.refl hw m with orderly := ⟨hw.current, hw.touched, hw.ascending⟩ }

/-- Which frame is current is no matter of a manager. -/
theorem confined_setCurrent (hw : w.Orderly) (m : ManagerId) (current : Option FrameId)
    (h : ∀ f, current = some f → f < w.frames.length) :
    Confined { w with current := current } w m :=
  { Confined.refl hw m with orderly := ⟨h, hw.touched, hw.ascending⟩ }

/-- A frame may be changed on behalf of its manager, if it comes to touch only objects of it. -/
theorem confined_modifyFrame (hw : w.Orderly) {f : FrameId} (hm : (w.frame f).manager = m)
    {g : Frame → Frame} (hmanager : ∀ frame, (g frame).manager = frame.manager)
    (htouched : w.Owns m (w.frame f).touched → w.Owns m (g (w.frame f)).touched) :
    (w.modifyFrame f g).Confined w m := by
  by_cases hf : f < w.frames.length
  · have hframe (h : FrameId) : ((w.modifyFrame f g).frame h).manager = (w.frame h).manager := by
      rw [frame_modifyFrame hf]
      split
      · exact hmanager _
      · rfl
    refine ⟨⟨?_, fun h hh => ?_, hw.ascending⟩, fun _ _ => rfl, ?_, fun h hh => ⟨hframe h, ?_⟩,
      Nat.le_refl _, fun _ _ => ⟨rfl, fun _ => rfl⟩⟩
    · rw [length_frames_modifyFrame]
      exact hw.current
    · rw [length_frames_modifyFrame] at hh
      rw [hframe, frame_modifyFrame hf]
      split
      · next heq =>
        subst heq
        rw [hm]
        exact htouched (hm ▸ hw.touched h hf)
      · exact hw.touched h hh
    · exact Nat.le_of_eq (length_frames_modifyFrame w f g).symm
    · intro hother
      rw [frame_modifyFrame hf, if_neg]
      rintro rfl
      exact hother hm
  · have hsame : w.modifyFrame f g = w := by
      rw [modifyFrame, List.modify_eq_self (Nat.le_of_not_lt hf)]
    rw [hsame]
    exact .refl hw m

/-- An object may be changed on behalf of its manager. -/
theorem confined_modifyObject (hw : w.Orderly) {o : ObjectId} (hm : (w.object o).manager = m)
    {g : Object α → Object α} (hmanager : ∀ object, (g object).manager = object.manager)
    (hascending : (w.object o).chain.Ascending → (g (w.object o)).chain.Ascending) :
    (w.modifyObject o g).Confined w m := by
  by_cases ho : o < w.objects.length
  · have howner (p : ObjectId) :
        ((w.modifyObject o g).object p).manager = (w.object p).manager := by
      rw [object_modifyObject ho]
      split
      · exact hmanager _
      · rfl
    refine ⟨⟨hw.current, fun f hf p hp => ?_, fun p => ?_⟩, fun _ _ => rfl, Nat.le_refl _,
      fun _ _ => ⟨rfl, fun _ => rfl⟩, ?_, fun p hp => ⟨howner p, ?_⟩⟩
    · rw [length_objects_modifyObject, howner]
      exact hw.touched f hf p hp
    · rw [object_modifyObject ho]
      split
      · next heq =>
        subst heq
        exact hascending (hw.ascending p)
      · exact hw.ascending p
    · exact Nat.le_of_eq (length_objects_modifyObject w o g).symm
    · intro hother
      rw [object_modifyObject ho, if_neg]
      rintro rfl
      exact hother hm
  · have hsame : w.modifyObject o g = w := by
      rw [modifyObject, List.modify_eq_self (Nat.le_of_not_lt ho)]
    rw [hsame]
    exact .refl hw m

/-- The chain of an object may be changed by whatever keeps it ascending. -/
theorem confined_modifyChain (hw : w.Orderly) {o : ObjectId} (hm : (w.object o).manager = m)
    {f : Chain α → Chain α} (hf : ∀ c : Chain α, c.Ascending → (f c).Ascending) :
    (w.modifyChain o f).Confined w m :=
  confined_modifyObject hw hm (fun _ => rfl) (hf _)

/-- Changing objects of a manager in order is confined to it if each change is. -/
theorem confined_foldl {change : World α → ObjectId → World α}
    (hchange : ∀ v : World α, v.Orderly → ∀ o, (v.object o).manager = m →
      (change v o).Confined v m) {objects : List ObjectId} (hw : w.Orderly)
    (howns : w.Owns m objects) : (objects.foldl change w).Confined w m := by
  induction objects generalizing w with
  | nil => exact .refl hw m
  | cons o rest ih =>
    have hfirst := hchange w hw o (howns o List.mem_cons_self).2
    have hrest : w.Owns m rest := fun p hp => howns p (List.mem_cons_of_mem o hp)
    exact hfirst.trans (ih hfirst.orderly (hfirst.owns hrest))

/-- A frame may be added that has touched nothing. -/
theorem confined_addFrame (hw : w.Orderly) (m : ManagerId) (frame : Frame)
    (htouched : frame.touched = []) :
    Confined { w with frames := w.frames ++ [frame] } w m := by
  have hold {f : FrameId} (hf : f < w.frames.length) :
      World.frame { w with frames := w.frames ++ [frame] } f = w.frame f := by
    simp [World.frame, List.getElem?_append_left hf]
  have hnew : World.frame { w with frames := w.frames ++ [frame] } w.frames.length = frame := by
    simp [World.frame]
  have hlength : (w.frames ++ [frame]).length = w.frames.length + 1 := by simp
  refine ⟨⟨fun f hf => ?_, fun f hf => ?_, hw.ascending⟩, fun _ _ => rfl, ?_, fun f hf => ?_,
    Nat.le_refl _, fun _ _ => ⟨rfl, fun _ => rfl⟩⟩
  · rw [hlength]
    exact Nat.lt_succ_of_lt (hw.current f hf)
  · rw [hlength] at hf
    rcases Nat.lt_succ_iff_lt_or_eq.mp hf with hf | rfl
    · rw [hold hf]
      exact hw.touched f hf
    · rw [hnew, htouched]
      intro o ho
      cases ho
  · rw [hlength]
    exact Nat.le_succ _
  · rw [hold hf]
    exact ⟨rfl, fun _ => rfl⟩

/-- An object may be added whose chain ascends. -/
theorem confined_addObject (hw : w.Orderly) (m : ManagerId) {object : Object α}
    (hascending : object.chain.Ascending) : (w.addObject object).Confined w m := by
  have hold {o : ObjectId} (ho : o < w.objects.length) :
      (w.addObject object).object o = w.object o := by
    rw [object_addObject, if_neg (Nat.ne_of_lt ho)]
  have hlength : w.objects.length ≤ (w.addObject object).objects.length := by
    rw [addObject, List.length_append]
    exact Nat.le_add_right _ _
  refine ⟨⟨hw.current, fun f hf o ho => ?_, fun o => ?_⟩, fun _ _ => rfl, Nat.le_refl _,
    fun _ _ => ⟨rfl, fun _ => rfl⟩, hlength, fun o ho => ?_⟩
  · obtain ⟨hmade, howner⟩ := hw.touched f hf o ho
    rw [hold hmade]
    exact ⟨Nat.lt_of_lt_of_le hmade hlength, howner⟩
  · rw [object_addObject]
    split
    · exact hascending
    · exact hw.ascending o
  · rw [hold ho]
    exact ⟨rfl, fun _ => rfl⟩

/-! ## Closing frames -/

/-- What a frame lists belongs to its manager. -/
theorem Orderly.listed (hw : w.Orderly) {f : FrameId} (hf : f < w.frames.length) :
    w.Owns (w.frame f).manager (w.frame f).listed :=
  fun o ho => hw.touched f hf o (Frame.mem_listed.mp ho)

/-- To discard an open frame is confined to its manager. -/
theorem confined_discardActive (hw : w.Orderly) {f : FrameId} (hf : f < w.frames.length) :
    (w.discardActive f).Confined w (w.frame f).manager := by
  have hdiscarded : Confined ((w.frame f).listed.foldl
      (fun v o => v.modifyChain o (·.discard (w.frame f).generation)) w) w (w.frame f).manager :=
    confined_foldl (fun _ hv _ hm => confined_modifyChain hv hm fun _ hc => hc.discard _) hw
      (hw.listed hf)
  rw [discardActive]
  generalize (w.frame f).listed.foldl _ w = v at hdiscarded
  have hclosed := hdiscarded.trans (confined_modifyManager hdiscarded.orderly _
    (·.closeAll [(w.frame f).generation]))
  have hleft := hclosed.trans (confined_modifyFrame hclosed.orderly (hclosed.frame_manager hf)
    (g := fun frame => { frame with state := .discarded }) (fun _ => rfl) id)
  exact hleft.trans (confined_count hleft.orderly _ _)

/-- To discard a frame, which may be closed, is confined to its manager. -/
theorem confined_discard (hw : w.Orderly) {f : FrameId} (hf : f < w.frames.length) :
    (w.discard f).Confined w (w.frame f).manager := by
  rw [discard]
  split
  · exact confined_discardActive hw hf
  · exact .refl hw _

/-- To publish merged values of a manager's objects is confined to the manager. -/
theorem confined_publishMerges (hw : w.Orderly) (g : Generation) {merges : List (PendingMerge α)}
    (howns : w.Owns m (merges.map (·.object))) : (w.publishMerges m g merges).2.Confined w m := by
  induction merges generalizing w with
  | nil => exact .refl hw m
  | cons merge rest ih =>
    have hminted := confined_modifyManager hw m (·.openNext [])
    obtain ⟨-, howner⟩ := hminted.owns howns merge.object List.mem_cons_self
    have hfirst : (w.publishMerge m g merge).2.Confined w m :=
      hminted.trans (confined_modifyChain hminted.orderly howner
        fun _ hc => (hc.unlink g).link _)
    have hrest : w.Owns m (rest.map (·.object)) := fun o ho =>
      howns o (List.mem_cons_of_mem _ ho)
    exact hfirst.trans (ih hfirst.orderly (hfirst.owns hrest))

/-- To trim the chains of a manager's objects is confined to the manager. -/
theorem confined_trimAll (hw : w.Orderly) (view : GcView) {objects : List ObjectId}
    (howns : w.Owns m objects) : (w.trimAll m view objects).Confined w m :=
  confined_foldl (fun _ hv _ hm =>
    have htrimmed := confined_modifyChain hv hm fun _ hc => hc.trim view
    htrimmed.trans (confined_count htrimmed.orderly m _)) hw howns

/-- To commit an open frame is confined to its manager, whether or not it loses. -/
theorem confined_commitActive (hw : w.Orderly) {f : FrameId} (hf : f < w.frames.length) :
    (w.commitActive f).2.Confined w (w.frame f).manager := by
  have hlisted := hw.listed hf
  unfold commitActive
  dsimp only
  split
  · have hdiscarded := confined_discardActive hw hf
    exact hdiscarded.trans (confined_count hdiscarded.orderly _ fun c =>
      { c with conflicts := c.conflicts + 1 })
  · next merges hchecked =>
    have hmerges : w.Owns (w.frame f).manager (merges.map (·.object)) := fun o ho =>
      hlisted o ((of_checkTouched_ok hchecked).1.subset ho)
    have hpublished := confined_publishMerges hw (w.frame f).generation hmerges
    generalize w.publishMerges (w.frame f).manager (w.frame f).generation merges = published
      at hpublished
    have hclosed := hpublished.trans (confined_modifyManager hpublished.orderly _
      (·.closeAll ((w.frame f).generation :: published.1)))
    have hleft := hclosed.trans (confined_modifyFrame hclosed.orderly (hclosed.frame_manager hf)
      (g := fun frame => { frame with state := .committed }) (fun _ => rfl) id)
    have hcounted := hleft.trans (confined_count hleft.orderly _ fun c =>
      { c with committed := c.committed + 1, merged := c.merged + merges.length })
    split
    · have htrimmed (view : GcView) := hcounted.trans
        (confined_trimAll hcounted.orderly view (hcounted.owns hlisted))
      exact (htrimmed _).trans (confined_tell (htrimmed _).orderly _ _)
    · exact hcounted.trans (confined_tell hcounted.orderly _ _)

/-- To commit a frame, which may be closed, is confined to its manager. -/
theorem confined_commit (hw : w.Orderly) {f : FrameId} (hf : f < w.frames.length) :
    (w.commit f).2.Confined w (w.frame f).manager := by
  rw [World.commit]
  dsimp only
  split
  · exact confined_commitActive hw hf
  · exact .refl hw _

/-- To let go of a frame is confined to its manager, also when that discards the frame. -/
theorem confined_release (hw : w.Orderly) {f : FrameId} (hf : f < w.frames.length) :
    (w.release f).Confined w (w.frame f).manager := by
  have hletGo : (w.letGo f).Confined w (w.frame f).manager :=
    confined_modifyFrame hw rfl (fun _ => rfl) id
  have hdiscarded := confined_discard hletGo.orderly (Nat.lt_of_lt_of_le hf hletGo.length_frames)
  rw [hletGo.frame_manager hf] at hdiscarded
  rw [release, ← letGo]
  split
  · exact hletGo.trans hdiscarded
  · exact hletGo

/-! ## Opening frames and making objects -/

/-- To open a frame is confined to the manager. -/
theorem confined_openFrame (hw : w.Orderly) (m : ManagerId) (options : FrameOptions) :
    (w.openFrame m options).2.Confined w m := by
  unfold openFrame
  dsimp only
  split
  · exact .refl hw m
  · have hadded := confined_addFrame hw m
      { manager := m, view := .ofFrame (w.manager m).next (w.manager m).openGenerations, options }
      rfl
    have hopened := hadded.trans (confined_modifyManager hadded.orderly m
      (·.openNext (w.manager m).openGenerations))
    exact hopened.trans (confined_count hopened.orderly m fun c =>
      { c with opened := c.opened + 1 })

/-- A frame may touch an object of its manager. -/
theorem confined_touch (hw : w.Orderly) {f : FrameId} (hm : (w.frame f).manager = m)
    {o : ObjectId} (howns : w.Owns m [o]) : (w.touch f o).Confined w m := by
  refine confined_modifyFrame hw hm (fun frame => ?_) fun htouched => ?_
  · split <;> rfl
  · split
    · exact htouched
    · intro p hp
      rcases List.mem_append.mp hp with hp | hp
      · exact htouched p hp
      · exact howns p hp

/-- To make an object is confined to the manager that it is made in. -/
theorem confined_newObject (hw : w.Orderly) (m : ManagerId) (typeName : String)
    (merge : α → α → α → Option α) (initial : α) :
    (w.newObject m typeName merge initial).2.Confined w m := by
  have hadd {v : World α} (hv : v.Orderly) (g : Generation) :
      (v.addObject { blankObject typeName merge with
        manager := m
        chain := .singleton { generation := g, base := none, value := initial } }).Confined v m :=
    confined_addObject hv m (Chain.ascending_singleton _)
  unfold newObject
  dsimp only
  split
  · next f hmaking =>
    obtain ⟨hcurrent, hm⟩ : w.current = some f ∧ ((w.frame f).manager == m) = true :=
      Option.filter_eq_some_iff.mp (Option.filter_eq_some_iff.mp hmaking).1
    have hadded := hadd hw (w.frame f).generation
    refine hadded.trans (confined_touch hadded.orderly (o := w.objects.length) ?_ ?_)
    · exact (hadded.frame_manager (hw.current f hcurrent)).trans (beq_iff_eq.mp hm)
    · intro o ho
      rw [List.mem_singleton.mp ho, object_addObject, if_pos rfl]
      refine ⟨?_, rfl⟩
      rw [addObject, List.length_append]
      exact Nat.lt_succ_self _
  · have hminted := confined_modifyManager hw m fun manager =>
      { manager with next := manager.next + 1 }
    exact hminted.trans (hadd hminted.orderly _)

/-- To announce an object is confined to its manager. -/
theorem confined_notifyCreated (hw : w.Orderly) (o : ObjectId) :
    (w.notifyCreated o).Confined w (w.object o).manager := by
  rw [notifyCreated]
  dsimp only
  split
  · exact .refl hw _
  · have hannounced := confined_modifyObject hw rfl
      (g := fun object => { object with announced := true }) (fun _ => rfl) id (o := o)
    have hcounted := hannounced.trans (confined_count hannounced.orderly (w.object o).manager
      fun c => { c with created := c.created + 1 })
    exact hcounted.trans (confined_tell hcounted.orderly _ _)

/-! ## Reading and writing -/

/-- To read in a frame changes no manager at all. -/
theorem confined_readableIn (hw : w.Orderly) (m : ManagerId) (f : FrameId) (o : ObjectId) :
    (w.running (readableIn f o)).2.Confined w m := by
  rw [running, readableIn_run]
  cases (w.frame f).isActive with
  | false => exact .refl hw m
  | true =>
    cases w.select? o (w.frame f).view with
    | none => exact .refl hw m
    | some r =>
      cases hobserved : (w.frame f).options.observed with
      | false => exact .refl hw m
      | true => exact confined_tell hw m _

/-- To read an object changes no manager at all. -/
theorem confined_readable (hw : w.Orderly) (m : ManagerId) (o : ObjectId) :
    (w.running (readable o)).2.Confined w m := by
  rw [running, readable_run]
  cases w.currentFrameOf? (w.object o).manager with
  | some f => exact confined_readableIn hw m f o
  | none => cases w.selectCommitted? o <;> exact .refl hw m

/-- To note the write of an object of the frame's manager is confined to that manager. -/
theorem confined_noteWrite (hw : w.Orderly) {f : FrameId} (hf : f < w.frames.length)
    {o : ObjectId} (howns : w.Owns (w.frame f).manager [o]) :
    (w.noteWrite f o).Confined w (w.frame f).manager := by
  rw [noteWrite]
  split
  · exact .refl hw _
  · have hnoted := confined_modifyFrame hw rfl
      (g := fun frame => { frame with written := frame.written ++ [o] }) (fun _ => rfl) id (f := f)
    exact hnoted.trans (confined_touch hnoted.orderly (hnoted.frame_manager hf)
      (hnoted.owns howns))

/-- A write to an object of another manager is refused before it is noted. -/
theorem confined_prepareWrite (hw : w.Orderly) {f : FrameId} (hf : f < w.frames.length)
    {o : ObjectId} (ho : o < w.objects.length) :
    (w.prepareWrite f o).2.Confined w (w.frame f).manager := by
  unfold prepareWrite
  dsimp only
  split
  · exact .refl hw _
  split
  · exact .refl hw _
  split
  · exact .refl hw _
  next hown =>
  have howner : (w.object o).manager = (w.frame f).manager := Eq.symm (by simpa using hown)
  have howns : w.Owns (w.frame f).manager [o] := fun p hp => by
    rw [List.mem_singleton.mp hp]
    exact ⟨ho, howner⟩
  have hnoted := confined_noteWrite hw hf howns
  split
  · exact hnoted
  · split
    · exact hnoted
    · have howner' := (hnoted.owns howns o (List.mem_singleton_self o)).2
      exact hnoted.trans (confined_modifyChain hnoted.orderly howner' fun _ hc => hc.link _)

/-- A write that finds its record is to an object of the frame's manager. -/
theorem owner_of_prepareWrite {f : FrameId} {o : ObjectId} {r : Record α}
    (h : w.prepareWrite f o = (.ok r, v)) : (w.object o).manager = (w.frame f).manager := by
  unfold prepareWrite at h
  dsimp only at h
  split at h
  · cases h
  split at h
  · cases h
  split at h
  · cases h
  next hown => exact Eq.symm (by simpa using hown)

/-- To tell the observer of a write is confined to the frame's manager. -/
theorem confined_tellWrite (hw : w.Orderly) (f : FrameId) (o : ObjectId) :
    (w.tellWrite f o).Confined w (w.frame f).manager :=
  have htell := confined_tell hw (w.frame f).manager (.wrote o)
  htell.trans (confined_modifyFrame htell.orderly rfl (fun _ => rfl) id)

/-- What the observer does is confined to the frame's manager. -/
theorem confined_afterObserver (hw : w.Orderly) {f : FrameId} (hf : f < w.frames.length)
    (o : ObjectId) : (w.afterObserver f o).Confined w (w.frame f).manager := by
  have htold := confined_tellWrite hw f o
  have hf' := Nat.lt_of_lt_of_le hf htold.length_frames
  have hcommitted := confined_commitActive htold.orderly hf'
  have hdiscarded := confined_discardActive htold.orderly hf'
  rw [htold.frame_manager hf] at hcommitted hdiscarded
  rw [afterObserver]
  split
  · split
    · exact htold
    · exact htold.trans hcommitted
    · exact htold.trans hdiscarded
  · exact .refl hw _

/-- To store a value is confined to the manager of the object. -/
theorem confined_store (hw : w.Orderly) {o : ObjectId} (hm : (w.object o).manager = m)
    (g : Generation) (change : α → α) : (w.store o g change).Confined w m :=
  confined_modifyChain hw hm fun _ hc => hc.modify g fun _ => rfl

/-- To find the record to write is confined to the frame's manager, since objects of others are
refused. -/
theorem confined_running_writableIn (hw : w.Orderly) {f : FrameId} (hf : f < w.frames.length)
    {o : ObjectId} (ho : o < w.objects.length) :
    (w.running (writableIn f o)).2.Confined w (w.frame f).manager := by
  have hprepared := confined_prepareWrite hw hf ho
  rw [running, writableIn_run]
  cases hprepare : w.prepareWrite f o with
  | mk result v =>
  rw [hprepare] at hprepared
  cases result with
  | error violation => exact hprepared
  | ok r =>
    have hobserved := confined_afterObserver hprepared.orderly
      (Nat.lt_of_lt_of_le hf hprepared.length_frames) o
    rw [hprepared.frame_manager hf] at hobserved
    dsimp only
    split
    · exact hprepared
    · exact hprepared.trans hobserved

/-- Whatever becomes of a write in the current frame, the world stays orderly. -/
theorem orderly_writable (hw : w.Orderly) {o : ObjectId} (ho : o < w.objects.length) :
    (w.running (writable o)).2.Orderly := by
  rw [running, writable_run]
  cases hcurrent : w.current with
  | none => exact hw
  | some f => exact (confined_running_writableIn hw (hw.current f hcurrent) ho).orderly

/-- A write in a frame is confined to the frame's manager. -/
theorem confined_writing (hw : w.Orderly) {f : FrameId} (hf : f < w.frames.length)
    {o : ObjectId} (ho : o < w.objects.length) (change : α → α) :
    (w.writing (writableIn f o) o change).2.Confined w (w.frame f).manager := by
  have hfound := confined_running_writableIn hw hf ho
  rw [running] at hfound
  rw [writing]
  cases hrun : (writableIn f o).run w with
  | error violation v =>
    rw [hrun] at hfound
    exact hfound
  | ok r v =>
    rw [hrun] at hfound
    have howner : (w.object o).manager = (w.frame f).manager := by
      rw [writableIn_run] at hrun
      cases hprepare : w.prepareWrite f o with
      | mk result u =>
      rw [hprepare] at hrun
      cases result with
      | error violation => cases hrun
      | ok r => exact owner_of_prepareWrite hprepare
    exact hfound.trans (confined_store hfound.orderly ((hfound.objects o ho).1.trans howner)
      r.generation change)

/-! ## The current frame -/

/-- To hold on to a frame is confined to its manager. -/
theorem confined_hold (hw : w.Orderly) (f : FrameId) :
    (w.hold f).Confined w (w.frame f).manager :=
  confined_modifyFrame hw rfl (fun _ => rfl) id

/-- To enter a frame is confined to its manager. -/
theorem confined_enterFrame (hw : w.Orderly) {f : FrameId} (hf : f < w.frames.length) :
    (w.enterFrame f).2.Confined w (w.frame f).manager := by
  rw [enterFrame]
  split
  · exact .refl hw _
  · have hheld := confined_hold hw f
    refine hheld.trans (confined_setCurrent hheld.orderly _ _ fun g hg => ?_)
    exact Option.some.inj hg ▸ Nat.lt_of_lt_of_le hf hheld.length_frames

/-- To leave a frame is confined to its manager. -/
theorem confined_leaveFrame (hw : w.Orderly) {f : FrameId} (hf : f < w.frames.length)
    (first : Bool) : (w.leaveFrame f first).Confined w (w.frame f).manager := by
  have hleft := confined_setCurrent hw (w.frame f).manager
    (if first then none else some f) fun g hg => by
      split at hg
      · cases hg
      · exact Option.some.inj hg ▸ hf
  exact hleft.trans (confined_release hleft.orderly hf)

/-! ## Trimming -/

/-- To trim an object of a manager by the readers of that manager is confined to the manager. -/
theorem confined_collect (hw : w.Orderly) {o : ObjectId} (hm : (w.object o).manager = m) :
    (w.collect m o).2.Confined w m := by
  have htrimmed := confined_modifyChain hw hm fun _ hc => hc.trim (w.manager m).gcView
  rw [collect]
  dsimp only [trimObject]
  exact htrimmed.trans (confined_count htrimmed.orderly m _)

end World

end VersionedObjects.Store
