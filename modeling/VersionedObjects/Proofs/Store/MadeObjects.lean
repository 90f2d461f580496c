import VersionedObjects.Proofs.Store.ClosingSteps
import VersionedObjects.Proofs.Store.Confinement
import VersionedObjects.Proofs.Store.MakingSites
import VersionedObjects.Proofs.Store.Touching

/-!
# Objects made one after the other

Objects are made in a manager, and nobody works with others meanwhile. The frame in which they are
made touches each of them when it is made, as long as it is open; what is read, written, announced
or closed on the way adds nothing to that. Main statements: `Makes.newObject`, `Makes.announce` and
`Makes.writable`.
-/

namespace VersionedObjects.Store

variable {α : Type}

/-- The object that was announced. -/
def Event.created? : Event → Option ObjectId
  | .created _ o _ _ => some o
  | _ => none

/-- A frame that may have been closed meanwhile, and otherwise is the one it was. -/
structure Frame.Stays (later frame : Frame) : Prop where
  manager : later.manager = frame.manager
  readOnly : later.options.readOnly = frame.options.readOnly
  active : later.isActive = true → frame.isActive = true

/-- A frame is what it was. -/
theorem Frame.Stays.refl (frame : Frame) : frame.Stays frame :=
  ⟨rfl, rfl, id⟩

/-- A frame that stayed twice stayed. -/
theorem Frame.Stays.trans {frame later latest : Frame} (h : later.Stays frame)
    (h' : latest.Stays later) : latest.Stays frame :=
  ⟨h'.manager.trans h.manager, h'.readOnly.trans h.readOnly,
    fun hopen => h.active (h'.active hopen)⟩

namespace World

variable {u v w : World α} {f : FrameId} {o : ObjectId} {m : ManagerId} {count : Nat}
  {told : List ObjectId}

/-- From one world to a later one nothing was made, announced or touched, and no frame was
opened. -/
structure Calm (v w : World α) : Prop where
  current : v.current = w.current
  log : ∃ events, v.log = w.log ++ events ∧ events.filterMap Event.created? = []
  length_objects : v.objects.length = w.objects.length
  objects : ∀ o, (v.object o).manager = (w.object o).manager ∧
    (v.object o).announced = (w.object o).announced
  length_frames : v.frames.length = w.frames.length
  frames : ∀ f, (v.frame f).touched = (w.frame f).touched ∧ (v.frame f).Stays (w.frame f)

namespace Calm

/-- Two calm steps are calm together. -/
theorem trans (h : v.Calm w) (h' : u.Calm v) : u.Calm w := by
  obtain ⟨events, hlog, hnone⟩ := h.log
  obtain ⟨more, hlog', hnone'⟩ := h'.log
  refine ⟨h'.current.trans h.current, ⟨events ++ more, ?_, ?_⟩,
    h'.length_objects.trans h.length_objects, fun o => ?_, h'.length_frames.trans h.length_frames,
    fun f => ?_⟩
  · rw [hlog', hlog, List.append_assoc]
  · rw [List.filterMap_append, hnone, hnone', List.append_nil]
  · exact ⟨(h'.objects o).1.trans (h.objects o).1, (h'.objects o).2.trans (h.objects o).2⟩
  · exact ⟨(h'.frames f).1.trans (h.frames f).1, (h.frames f).2.trans (h'.frames f).2⟩

/-- Nothing happened where only managers changed. -/
theorem of_eq (hcurrent : v.current = w.current) (hlog : v.log = w.log)
    (hobjects : v.objects = w.objects) (hframes : v.frames = w.frames) : v.Calm w := by
  have hobject (o : ObjectId) : v.object o = w.object o := by rw [object, hobjects, object]
  have hframe (f : FrameId) : v.frame f = w.frame f := by rw [frame, hframes, frame]
  exact ⟨hcurrent, ⟨[], by rw [hlog, List.append_nil], rfl⟩, by rw [hobjects],
    fun o => by rw [hobject]; exact ⟨rfl, rfl⟩, by rw [hframes],
    fun f => by rw [hframe]; exact ⟨rfl, .refl _⟩⟩

/-- Where nothing happens all is calm. -/
theorem refl (w : World α) : w.Calm w :=
  of_eq rfl rfl rfl rfl

/-- An event that is no creation may be told calmly. -/
theorem tell (w : World α) {event : Event} (hevent : event.created? = none) :
    (w.tell event).Calm w :=
  { refl w with log := ⟨[event], rfl, by simp [hevent]⟩ }

/-- A frame may be changed calmly in what it neither touched nor stays by. -/
theorem modifyFrame (w : World α) (f : FrameId) {g : Frame → Frame}
    (htouched : ∀ frame, (g frame).touched = frame.touched)
    (hstays : ∀ frame, (g frame).Stays frame) : (w.modifyFrame f g).Calm w := by
  refine { refl w with length_frames := length_frames_modifyFrame w f g, frames := fun h => ?_ }
  by_cases hf : f < w.frames.length
  · rw [frame_modifyFrame hf]
    split
    · exact ⟨htouched _, hstays _⟩
    · exact ⟨rfl, .refl _⟩
  · rw [World.modifyFrame, List.modify_eq_self (Nat.le_of_not_lt hf)]
    exact ⟨rfl, .refl _⟩

/-- The chain of an object may be changed calmly. -/
theorem modifyChain (w : World α) (o : ObjectId) (change : Chain α → Chain α) :
    (w.modifyChain o change).Calm w := by
  refine { refl w with length_objects := ?_, objects := fun p => ?_ }
  · exact length_objects_modifyObject w o _
  · by_cases ho : o < w.objects.length
    · rw [World.modifyChain, object_modifyObject ho]
      split <;> exact ⟨rfl, rfl⟩
    · rw [World.modifyChain, World.modifyObject, List.modify_eq_self (Nat.le_of_not_lt ho)]
      exact ⟨rfl, rfl⟩

/-- To store a value is calm. -/
theorem store (w : World α) (o : ObjectId) (g : Generation) (change : α → α) :
    (w.store o g change).Calm w :=
  modifyChain w o _

/-! ### Closing frames -/

/-- Closing a frame goes in calm steps. -/
theorem throughClosing : ThroughClosing fun v w : World α => v.Calm w where
  refl := refl
  trans := trans
  count _ _ _ := of_eq rfl rfl rfl rfl
  closeAll _ _ _ := of_eq rfl rfl rfl rfl
  close w f state hstate := modifyFrame w f (fun _ => rfl) fun frame =>
    ⟨rfl, rfl, fun hactive => absurd (by simpa [Frame.isActive] using hactive) hstate⟩
  discardRecord w o _ := modifyChain w o _
  trimRecords w o _ := modifyChain w o _
  tell w _ _ := tell w rfl

/-- To commit a frame is calm. -/
theorem commitActive (w : World α) (f : FrameId) : (w.commitActive f).2.Calm w := by
  refine throughClosing.commitActive w f fun merges _ =>
    throughClosing.publishMerges (fun v m g merge => ?_) ..
  have hopened : (v.modifyManager m (·.openNext [])).Calm v := of_eq rfl rfl rfl rfl
  rw [publishMerge]
  dsimp only
  exact hopened.trans (modifyChain ..)

/-- What the observer does is calm. -/
theorem afterObserver (w : World α) (f : FrameId) (o : ObjectId) :
    (w.afterObserver f o).Calm w :=
  throughClosing.afterObserver w f o
    ((tell w rfl).trans (modifyFrame _ f (fun _ => rfl) fun frame =>
      ⟨rfl, frame.options.readOnly_afterFirstWrite, id⟩))
    fun v => commitActive v f

/-! ### Writing -/

/-- A write to an object that the frame touched already. -/
theorem noteWrite (hmem : o ∈ (w.frame f).touched) : (w.noteWrite f o).Calm w := by
  cases hwritten : (w.frame f).written.contains o with
  | true =>
    rw [World.noteWrite, if_pos hwritten]
    exact refl w
  | false =>
    have htouch : w.touch f o = w := by
      have hframes : w.frames.modify f (fun frame =>
          if frame.touched.contains o then frame
          else { frame with touched := frame.touched ++ [o] }) = w.frames := by
        refine List.ext_getElem? fun h => ?_
        rw [List.getElem?_modify]
        split
        · next hh =>
          subst hh
          cases hframe : w.frames[f]? with
          | none => rfl
          | some frame =>
            rw [World.frame, hframe, Option.getD_some] at hmem
            rw [Option.map_eq_map, Option.map_some, if_pos (List.contains_iff_mem.mpr hmem)]
        · rw [Option.map_eq_map, Option.map_id_fun', id]
      rw [touch, World.modifyFrame, hframes]
    rw [noteWrite_of_notMem hwritten, htouch]
    exact modifyFrame w f (fun _ => rfl) fun _ => ⟨rfl, rfl, id⟩

/-- A write that is not refused before it is noted is to an object that the frame could make. -/
theorem prepareWrite (hcurrent : w.current = some f)
    (hmem : w.makingFrame? (w.object o).manager = some f → o ∈ (w.frame f).touched) :
    (w.prepareWrite f o).2.Calm w := by
  unfold World.prepareWrite
  dsimp only
  split
  · exact refl w
  split
  · exact refl w
  split
  · exact refl w
  next hactive hreadOnly hown =>
  have hnoted : (w.noteWrite f o).Calm w := by
    refine noteWrite (hmem ?_)
    simp_all [makingFrame?, currentFrameOf?]
  split
  · exact hnoted
  · split
    · exact hnoted
    · next base _ =>
      exact hnoted.trans (modifyChain _ o (·.link (base.branchedFor (w.frame f))))

/-- To find the record of an object that its frame has touched already is calm. -/
theorem writable (hmem : ∀ f, w.makingFrame? (w.object o).manager = some f →
    o ∈ (w.frame f).touched) : (w.running (Store.writable o)).2.Calm w := by
  rw [running, writable_run]
  cases hcurrent : w.current with
  | none => exact refl w
  | some f =>
    have hprepared := prepareWrite hcurrent (hmem f)
    dsimp only
    rw [writableIn_run]
    cases hprepare : w.prepareWrite f o with
    | mk result v =>
    rw [hprepare] at hprepared
    cases result with
    | error violation => exact hprepared
    | ok r =>
      dsimp only
      split
      · exact hprepared
      · exact hprepared.trans (afterObserver v f o)

end Calm

/-! ## Making objects -/

/-- A read is told to the observer of a frame at most. -/
theorem running_readable (w : World α) (o : ObjectId) :
    (w.running (Store.readable o)).2 = w ∨ (w.running (Store.readable o)).2 = w.tell (.read o) := by
  have hreadableIn (f : FrameId) : (w.running (readableIn f o)).2 = w ∨
      (w.running (readableIn f o)).2 = w.tell (.read o) := by
    rw [running, readableIn_run]
    cases (w.frame f).isActive with
    | false => exact .inl rfl
    | true =>
      cases w.select? o (w.frame f).view with
      | none => exact .inl rfl
      | some r =>
        cases (w.frame f).options.observed with
        | false => exact .inl rfl
        | true => exact .inr rfl
  rw [running, readable_run]
  cases w.currentFrameOf? (w.object o).manager with
  | some f => exact hreadableIn f
  | none => cases w.selectCommitted? o <;> exact .inl rfl

/-- An object is announced, the first time. -/
theorem notifyCreated_of_unannounced (h : (w.object o).announced = false) :
    ∃ event, event.created? = some o ∧ w.notifyCreated o =
      (((w.modifyObject o fun object => { object with announced := true }).count
        (w.object o).manager fun c => { c with created := c.created + 1 }).tell event) := by
  rw [notifyCreated, h]
  exact ⟨_, rfl, rfl⟩

/-- An object is made unannounced, and touched by the frame for new ones if there is one. -/
theorem newObject_spec (w : World α) (m : ManagerId) (typeName : String)
    (merge : α → α → α → Option α) (initial : α) :
    (w.newObject m typeName merge initial).1 = w.objects.length ∧
    ∃ object, object.manager = m ∧ object.announced = false ∧
      let v := (w.newObject m typeName merge initial).2
      v.current = w.current ∧ v.log = w.log ∧ v.objects = w.objects ++ [object] ∧
        v.frames = match w.makingFrame? m with
          | some f => (w.touch f w.objects.length).frames
          | none => w.frames := by
  unfold World.newObject
  cases w.makingFrame? m with
  | some f => exact ⟨rfl, _, rfl, rfl, rfl, rfl, rfl, rfl⟩
  | none => exact ⟨rfl, _, rfl, rfl, rfl, rfl, rfl, rfl⟩

/-- An object that was announced was made. -/
theorem lt_length_of_announced (h : (w.object o).announced = true) : o < w.objects.length := by
  by_contra hlt
  rw [object, List.getElem?_eq_none (Nat.le_of_not_lt hlt)] at h
  cases h

/-- The frame for new objects is current. -/
theorem current_of_makingFrame? (h : w.makingFrame? m = some f) : w.current = some f :=
  (Option.filter_eq_some_iff.mp (Option.filter_eq_some_iff.mp h).1).1

/-- No frame comes to be one in which objects are made. -/
theorem makingFrame?_of_stays (hcurrent : v.current = w.current)
    (hframes : ∀ f, (v.frame f).Stays (w.frame f)) (h : v.makingFrame? m = some f) :
    w.makingFrame? m = some f := by
  obtain ⟨hmanager, hreadOnly, hactive⟩ := hframes f
  simp only [makingFrame?, currentFrameOf?, Option.filter_eq_some_iff, Bool.and_eq_true, hcurrent,
    hmanager, hreadOnly] at h ⊢
  exact ⟨h.1, hactive h.2.1, h.2.2⟩

/-- A commit reports what its frame touched, as the frame lists it. -/
theorem changed_of_commit {event : CommitEvent} (h : (w.commit f).1 = .ok (.ok event)) :
    event.changed = (w.frame f).listed := by
  unfold commit at h
  dsimp only at h
  split at h
  · unfold commitActive at h
    dsimp only at h
    split at h
    · cases h
    · cases h
      rfl
  · cases h

/-- From one world to a later one a number of objects were made in the manager. Observers were told
of the creation of some of them, each once, and of no others. The frame in which they were made, if
there is one, touched those that were made as long as it was open, and nothing else. -/
structure Makes (v w : World α) (m : ManagerId) (count : Nat) (told : List ObjectId) : Prop where
  current : v.current = w.current
  length_objects : v.objects.length = w.objects.length + count
  owner : ∀ o, w.objects.length ≤ o → o < v.objects.length → (v.object o).manager = m
  log : ∃ events, v.log = w.log ++ events ∧ (events.filterMap Event.created?).Nodup ∧
    ∀ o, o ∈ events.filterMap Event.created? ↔
      w.objects.length ≤ o ∧ (v.object o).announced = true
  told : ∀ o ∈ told, (v.object o).announced = true
  length_frames : v.frames.length = w.frames.length
  making : ∀ f, v.makingFrame? m = some f → w.makingFrame? m = some f
  touched : ∃ kept ≤ count,
    (∀ f, (v.frame f).touched = (w.frame f).touched ++
      if w.makingFrame? m = some f then List.range' w.objects.length kept else []) ∧
    ((v.makingFrame? m).isSome = true → kept = count) ∧
    ((w.makingFrame? m).isSome = true → 0 < count → 0 < kept)
  unmade : count = 0 → v.frames = w.frames

namespace Makes

/-- Nothing was made yet. -/
theorem refl (w : World α) (m : ManagerId) : w.Makes w m 0 [] where
  current := rfl
  length_objects := rfl
  owner o hle hlt := absurd hlt (Nat.not_lt.mpr hle)
  log := by
    refine ⟨[], (List.append_nil _).symm, List.nodup_nil, fun o => ?_⟩
    refine iff_of_false List.not_mem_nil fun ⟨hle, hannounced⟩ => ?_
    exact absurd (lt_length_of_announced hannounced) (Nat.not_lt.mpr hle)
  told := nofun
  length_frames := rfl
  making _ := id
  touched := ⟨0, Nat.le_refl 0, fun f => by simp, fun _ => rfl, fun _ => id⟩
  unmade _ := rfl

/-- Fewer objects may be asked to have been announced. -/
theorem mono {more : List ObjectId} (h : v.Makes w m count told) (hsubset : more ⊆ told) :
    v.Makes w m count more :=
  { h with told := fun o ho => h.told o (hsubset ho) }

/-- Only the frame for new objects is changed, and only when there are any. -/
theorem calm (h : v.Makes w m count told) (h' : u.Calm v)
    (hunmade : count = 0 → u.frames = v.frames) : u.Makes w m count told where
  current := h'.current.trans h.current
  length_objects := h'.length_objects.trans h.length_objects
  owner o hle hlt := (h'.objects o).1.trans (h.owner o hle (h'.length_objects ▸ hlt))
  log := by
    obtain ⟨events, hlog, hnodup, hmem⟩ := h.log
    obtain ⟨more, hlog', hnone⟩ := h'.log
    refine ⟨events ++ more, by rw [hlog', hlog, List.append_assoc], ?_, fun o => ?_⟩
    · rwa [List.filterMap_append, hnone, List.append_nil]
    · rw [List.filterMap_append, hnone, List.append_nil, hmem, (h'.objects o).2]
  told o ho := (h'.objects o).2.trans (h.told o ho)
  length_frames := h'.length_frames.trans h.length_frames
  making f hf := h.making f (makingFrame?_of_stays h'.current (fun f => (h'.frames f).2) hf)
  touched := by
    obtain ⟨kept, hle, htouched, hopen, hpos⟩ := h.touched
    refine ⟨kept, hle, fun f => (h'.frames f).1.trans (htouched f), fun hmaking => ?_, hpos⟩
    obtain ⟨f, hf⟩ := Option.isSome_iff_exists.mp hmaking
    exact hopen (Option.isSome_of_eq_some
      (makingFrame?_of_stays h'.current (fun f => (h'.frames f).2) hf))
  unmade hzero := (hunmade hzero).trans (h.unmade hzero)

/-- An object that was made is touched by the frame for new ones, if there still is one. -/
theorem mem_touched (h : v.Makes w m count told) (hle : w.objects.length ≤ o)
    (hlt : o < v.objects.length) (hmaking : v.makingFrame? m = some f) :
    o ∈ (v.frame f).touched := by
  obtain ⟨kept, -, htouched, hopen, -⟩ := h.touched
  rw [htouched, if_pos (h.making f hmaking), hopen (Option.isSome_of_eq_some hmaking)]
  refine List.mem_append_right _ (List.mem_range'_1.mpr ⟨hle, ?_⟩)
  rwa [← h.length_objects]

/-- To store a value makes nothing more. -/
theorem store (h : v.Makes w m count told) (o : ObjectId) (g : Generation) (change : α → α) :
    (v.store o g change).Makes w m count told :=
  h.calm (.store v o g change) fun _ => rfl

/-- To read an object makes nothing more. -/
theorem readable (h : v.Makes w m count told) (o : ObjectId) :
    (v.running (Store.readable o)).2.Makes w m count told := by
  rcases running_readable v o with hsame | htold
  · rwa [hsame]
  · rw [htold]
    exact h.calm (.tell v rfl) fun _ => rfl

/-- Whatever becomes of a write to one of the objects. -/
theorem writable (h : v.Makes w m count told) (hle : w.objects.length ≤ o)
    (hlt : o < v.objects.length) : (v.running (Store.writable o)).2.Makes w m count told := by
  refine h.calm (.writable fun f hmaking => ?_) fun hzero => ?_
  · rw [h.owner o hle hlt] at hmaking
    exact h.mem_touched hle hlt hmaking
  · rw [h.length_objects, hzero] at hlt
    exact absurd hlt (Nat.not_lt.mpr hle)

/-- An object that is announced for the first time is one more of those that were announced. -/
theorem log_announce (h : v.Makes w m count told) (hle : w.objects.length ≤ o)
    (hannounced : (v.object o).announced = false) {event : Event}
    (hevent : event.created? = some o) (htold : u.log = v.log ++ [event])
    (hobject : ∀ p, u.object p =
      if p = o then { v.object p with announced := true } else v.object p) :
    ∃ events, u.log = w.log ++ events ∧ (events.filterMap Event.created?).Nodup ∧
      ∀ p, p ∈ events.filterMap Event.created? ↔
        w.objects.length ≤ p ∧ (u.object p).announced = true := by
  obtain ⟨events, hlog, hnodup, hmem⟩ := h.log
  have hcreated : (events ++ [event]).filterMap Event.created? =
      events.filterMap Event.created? ++ [o] := by
    rw [List.filterMap_append, List.filterMap_cons_some hevent, List.filterMap_nil]
  have hnew : o ∉ events.filterMap Event.created? := fun ho => by
    have htrue := ((hmem o).mp ho).2
    rw [hannounced] at htrue
    cases htrue
  refine ⟨events ++ [event], ?_, ?_, fun p => ?_⟩
  · rw [htold, hlog, List.append_assoc]
  · rw [hcreated]
    exact hnodup.append (List.nodup_singleton o) (List.disjoint_singleton.mpr hnew)
  · rw [hcreated, List.mem_append, List.mem_singleton, hmem, hobject]
    split
    · next hp => simp [hp, hle]
    · next hp => simp [hp]

/-- One of the objects is announced. -/
theorem announce (h : v.Makes w m count told) (hle : w.objects.length ≤ o)
    (hlt : o < v.objects.length) : (v.notifyCreated o).Makes w m count (o :: told) := by
  cases hannounced : (v.object o).announced with
  | true =>
    rw [notifyCreated, hannounced]
    exact { h with told := List.forall_mem_cons.mpr ⟨hannounced, h.told⟩ }
  | false =>
    obtain ⟨event, hevent, heq⟩ := notifyCreated_of_unannounced hannounced
    have hobject (p : ObjectId) : (v.notifyCreated o).object p =
        if p = o then { v.object p with announced := true } else v.object p := by
      rw [heq]
      exact object_modifyObject hlt _ p
    have hlength : (v.notifyCreated o).objects.length = v.objects.length := by
      rw [heq]
      exact length_objects_modifyObject v o _
    have hframes : (v.notifyCreated o).frames = v.frames := by rw [heq]; rfl
    have hcurrent : (v.notifyCreated o).current = v.current := by rw [heq]; rfl
    have hmaking := makingFrame?_congr hcurrent hframes m
    exact
      { current := hcurrent.trans h.current
        length_objects := hlength.trans h.length_objects
        owner := fun p hle' hlt' => by
          have howner := h.owner p hle' (hlength ▸ hlt')
          rw [hobject]
          split <;> exact howner
        log := h.log_announce hle hannounced hevent (by rw [heq]; rfl) hobject
        told := fun p hp => by
          rw [hobject]
          split
          · rfl
          · next hne => exact h.told p ((List.mem_cons.mp hp).resolve_left hne)
        length_frames := (congrArg List.length hframes).trans h.length_frames
        making := fun f hf => h.making f (hmaking ▸ hf)
        touched := by
          obtain ⟨kept, hkept, htouched, hopen, hpos⟩ := h.touched
          refine ⟨kept, hkept, fun f => ?_, hmaking ▸ hopen, hpos⟩
          rw [frame, hframes, ← frame]
          exact htouched f
        unmade := fun hzero => hframes.trans (h.unmade hzero) }

/-- The next object was not touched by the frame for new ones. -/
theorem next_notMem_touched (hw : w.Orderly) (h : v.Makes w m count told)
    (hmaking : v.makingFrame? m = some f) : v.objects.length ∉ (v.frame f).touched := by
  obtain ⟨kept, hle, htouched, -⟩ := h.touched
  have hf : f < w.frames.length := hw.current f (current_of_makingFrame? (h.making f hmaking))
  rw [htouched, if_pos (h.making f hmaking), List.mem_append, List.mem_range'_1,
    h.length_objects]
  rintro (hold | ⟨-, hlt⟩)
  · exact absurd (hw.touched f hf _ hold).1 (Nat.not_lt.mpr (Nat.le_add_right _ _))
  · exact absurd (Nat.lt_of_add_lt_add_left hlt) (Nat.not_lt.mpr hle)

/-- The frame for new objects touches the next one, and no other frame does anything. -/
theorem frame_newObject (hw : w.Orderly) (h : v.Makes w m count told)
    (hframes : u.frames = match v.makingFrame? m with
      | some f => (v.touch f v.objects.length).frames
      | none => v.frames) (f : FrameId) :
    u.frame f = if v.makingFrame? m = some f then
      { v.frame f with touched := (v.frame f).touched ++ [v.objects.length] } else v.frame f := by
  cases hmaking : v.makingFrame? m with
  | none =>
    rw [hmaking] at hframes
    rw [frame, hframes, ← frame, if_neg (Option.some_ne_none f).symm]
  | some g =>
    rw [hmaking] at hframes
    have hg : g < v.frames.length := by
      rw [h.length_frames]
      exact hw.current g (current_of_makingFrame? (h.making g hmaking))
    rw [frame, hframes, ← frame, touch, frame_modifyFrame hg]
    by_cases hfg : f = g
    · subst hfg
      rw [if_pos rfl, if_pos rfl, if_neg]
      simpa using h.next_notMem_touched hw hmaking
    · rw [if_neg hfg, if_neg (fun heq => hfg (Option.some.inj heq).symm)]

/-- The frame for new objects touched the next one as well. If there is none any more, it was
closed because there were objects to write. -/
theorem touched_newObject (h : v.Makes w m count told)
    (hframe : ∀ f, u.frame f = if v.makingFrame? m = some f then
      { v.frame f with touched := (v.frame f).touched ++ [v.objects.length] } else v.frame f)
    (hmaking : ∀ f, u.makingFrame? m = some f → v.makingFrame? m = some f) :
    ∃ kept ≤ count + 1,
      (∀ f, (u.frame f).touched = (w.frame f).touched ++
        if w.makingFrame? m = some f then List.range' w.objects.length kept else []) ∧
      ((u.makingFrame? m).isSome = true → kept = count + 1) ∧
      ((w.makingFrame? m).isSome = true → 0 < count + 1 → 0 < kept) := by
  obtain ⟨kept, hle, htouched, hopen, hpos⟩ := h.touched
  cases hplace : v.makingFrame? m with
  | none =>
    refine ⟨kept, Nat.le_succ_of_le hle, fun f => ?_, fun hsome => ?_, fun hsome _ => ?_⟩
    · rw [hframe, hplace, if_neg (Option.some_ne_none f).symm]
      exact htouched f
    · obtain ⟨f, hf⟩ := Option.isSome_iff_exists.mp hsome
      rw [hmaking f hf] at hplace
      cases hplace
    · refine hpos hsome (Nat.pos_of_ne_zero fun hzero => ?_)
      rw [← makingFrame?_congr h.current (h.unmade hzero), hplace] at hsome
      cases hsome
  | some g =>
    refine ⟨count + 1, Nat.le_refl _, fun f => ?_, fun _ => rfl, fun _ => id⟩
    have hg := h.making g hplace
    have hkept := hopen (Option.isSome_of_eq_some hplace)
    rw [hframe, hplace, hg]
    split
    · next heq =>
      rw [htouched, hg, if_pos heq, hkept, h.length_objects, List.range'_concat,
        Nat.one_mul, List.append_assoc]
    · next hne => rw [htouched, hg, if_neg hne]

/-- One more object is made. -/
theorem newObject (hw : w.Orderly) (h : v.Makes w m count told) (typeName : String)
    (merge : α → α → α → Option α) (initial : α) :
    (v.newObject m typeName merge initial).2.Makes w m (count + 1) told := by
  obtain ⟨-, made, howner, hannounced, hcurrent, hlog, hobjects, hframes⟩ :=
    newObject_spec v m typeName merge initial
  generalize (v.newObject m typeName merge initial).2 = u at *
  have hframe := h.frame_newObject hw hframes
  have hlength : u.objects.length = v.objects.length + 1 := by simp [hobjects]
  have hobject (p : ObjectId) : u.object p =
      if p = v.objects.length then made else v.object p := by
    rw [← object_addObject v made p, object, hobjects, object, addObject]
  have hsame (p : ObjectId) : (u.object p).announced = (v.object p).announced := by
    rw [hobject]
    split
    · next hp =>
      rw [hannounced, hp, object, List.getElem?_eq_none (Nat.le_refl _)]
      rfl
    · rfl
  have hmaking (f : FrameId) : u.makingFrame? m = some f → v.makingFrame? m = some f := by
    refine makingFrame?_of_stays hcurrent fun f => ?_
    rw [hframe]
    split
    · exact ⟨rfl, rfl, id⟩
    · exact .refl _
  exact
    { current := hcurrent.trans h.current
      length_objects := by rw [hlength, h.length_objects, Nat.add_assoc]
      owner := fun p hle hlt => by
        rw [hobject]
        split
        · exact howner
        · next hp =>
          rw [hlength] at hlt
          exact h.owner p hle (Nat.lt_of_le_of_ne (Nat.le_of_lt_succ hlt) hp)
      log := by
        obtain ⟨events, hlog', hnodup, hmem⟩ := h.log
        exact ⟨events, hlog.trans hlog', hnodup, fun p => by rw [hmem, hsame]⟩
      told := fun p hp => (hsame p).trans (h.told p hp)
      length_frames := by
        rw [← h.length_frames, hframes]
        split
        · exact length_frames_modifyFrame ..
        · rfl
      making := fun f hf => h.making f (hmaking f hf)
      touched := h.touched_newObject hframe hmaking
      unmade := fun hzero => absurd hzero (Nat.succ_ne_zero count) }

end Makes

end World

end VersionedObjects.Store
