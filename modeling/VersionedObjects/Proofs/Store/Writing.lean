import VersionedObjects.Proofs.Store.Opening

/-!
# Writing

A write in three parts: the frame's record is found or branched, the observer of the frame is told
of a first write and may close the frame, and the value is stored into the record. What each part
does to a tidy world.
-/

namespace VersionedObjects.Store

variable {α : Type}

/-- The record that a frame branches from another one. -/
def Record.branchedFor (base : Record α) (frame : Frame) : Record α :=
  { generation := frame.generation, base := some base.generation, value := base.value }

namespace World

variable {w : World α}

/-! ## The three parts -/

/-- The world after a write of a frame to an object was noted. -/
def noteWrite (w : World α) (f : FrameId) (o : ObjectId) : World α :=
  if (w.frame f).written.contains o then w
  else (w.modifyFrame f fun frame => { frame with written := frame.written ++ [o] }).touch f o

/-- The record that a write of a frame to an object changes, and the world with it. -/
def prepareWrite (w : World α) (f : FrameId) (o : ObjectId) :
    Except Violation (Record α) × World α :=
  let frame := w.frame f
  let object := w.object o
  let g := frame.generation
  if !frame.isActive then (.error (.closedFrame "write" g frame.state), w)
  else if frame.options.readOnly then (.error (.readOnlyFrame object.typeName o g), w)
  else if frame.manager != object.manager then (.error (.foreignFrame object.typeName o g), w)
  else
    match object.chain.find? g with
    | some r => (.ok r, w.noteWrite f o)
    | none =>
      match w.select? o frame.view with
      | none => (.error (.noBase object.typeName o g), w.noteWrite f o)
      | some base =>
        (.ok (base.branchedFor frame),
          (w.noteWrite f o).modifyChain o (·.link (base.branchedFor frame)))

/-- The world after the observer of a frame was told of a first write. -/
def tellWrite (w : World α) (f : FrameId) (o : ObjectId) : World α :=
  (w.tell (.wrote o)).modifyFrame f fun frame =>
    { frame with options := frame.options.afterFirstWrite }

/-- The world after the observer of a frame, if there is one, has acted on a first write. -/
def afterObserver (w : World α) (f : FrameId) (o : ObjectId) : World α :=
  if (w.frame f).options.observed then
    match (w.frame f).options.closing? with
    | none => w.tellWrite f o
    | some .commit => ((w.tellWrite f o).commitActive f).2
    | some .discard => (w.tellWrite f o).discardActive f
  else w

/-- To tell the observer always succeeds, whatever the observer does. -/
theorem observeWrite_run (w : World α) (f : FrameId) (o : ObjectId) :
    (observeWrite f o).run w = .ok () (w.afterObserver f o) := by
  unfold afterObserver
  cases hobserved : (w.frame f).options.observed with
  | false => simp [observeWrite, hobserved]
  | true =>
    cases honce : (w.frame f).options.closing? with
    | none => simp [observeWrite, hobserved, honce, tellWrite]
    | some closing => cases closing <;> simp [observeWrite, hobserved, honce, tellWrite]

/-- Noting a write changes of a frame only what it touched and wrote. -/
theorem frame_noteWrite {β : Type} (p : Frame → β)
    (htouched : ∀ frame touched, p { frame with touched := touched } = p frame)
    (hwritten : ∀ frame written, p { frame with written := written } = p frame)
    (w : World α) (f : FrameId) (o : ObjectId) (h : FrameId) :
    p ((w.noteWrite f o).frame h) = p (w.frame h) := by
  unfold noteWrite
  split
  · rfl
  · by_cases hf : f < w.frames.length
    · rw [touch, frame_modifyFrame (by simpa using hf), frame_modifyFrame hf]
      split
      · split
        · rw [hwritten]
        · rw [htouched, hwritten]
      · rfl
    · rw [touch, modifyFrame, modifyFrame, List.modify_eq_self (Nat.le_of_not_lt hf),
        List.modify_eq_self (Nat.le_of_not_lt hf)]

/-- To note a write changes no frame's view. -/
theorem view_noteWrite (w : World α) (f : FrameId) (o : ObjectId) (h : FrameId) :
    ((w.noteWrite f o).frame h).view = (w.frame h).view :=
  frame_noteWrite Frame.view (fun _ _ => rfl) (fun _ _ => rfl) w f o h

/-- To note a write changes no object. -/
theorem object_noteWrite (w : World α) (f : FrameId) (o p : ObjectId) :
    (w.noteWrite f o).object p = w.object p := by
  unfold noteWrite
  split <;> rfl

/-- A record that is branched is that of the frame as it was before the write was noted. -/
theorem branch_run_noteWrite (w : World α) (f : FrameId) (o : ObjectId) :
    (branch f o).run (w.noteWrite f o) =
      match w.select? o (w.frame f).view with
      | none => .error (.noBase (w.object o).typeName o (w.frame f).generation)
          (w.noteWrite f o)
      | some base => .ok (base.branchedFor (w.frame f))
          ((w.noteWrite f o).modifyChain o (·.link (base.branchedFor (w.frame f)))) := by
  have hgen : ((w.noteWrite f o).frame f).generation = (w.frame f).generation :=
    congrArg Visibility.generation (view_noteWrite w f o f)
  have hselect : (w.noteWrite f o).select? o ((w.noteWrite f o).frame f).view =
      w.select? o (w.frame f).view := by
    rw [select?, object_noteWrite, view_noteWrite, ← select?]
  cases hbase : w.select? o (w.frame f).view with
  | none =>
    simp only [branch, EStateM.run_bind, EStateM.run_get, hselect, hbase, hgen, object_noteWrite]
    rfl
  | some base => simp [branch, hselect, hbase, hgen, Record.branchedFor, -bind_pure_comp]

/-- A write finds or branches the record of the frame; then the observer acts on a first
write. -/
theorem writableIn_run (w : World α) (f : FrameId) (o : ObjectId) :
    (writableIn f o).run w =
      match w.prepareWrite f o with
      | (.error violation, v) => .error violation v
      | (.ok r, v) =>
        .ok r (if (w.frame f).written.contains o then v else v.afterObserver f o) := by
  have hnote (k : Unit → StoreM α (Record α)) :
      (if (!(w.frame f).written.contains o) = true then
        (modify fun w => (w.modifyFrame f fun frame =>
          { frame with written := frame.written ++ [o] }).touch f o) >>= k
        else k ()).run w = (k ()).run (w.noteWrite f o) := by
    unfold noteWrite
    cases (w.frame f).written.contains o <;> simp
  have hobserve (r : Record α) (v : World α) :
      (if (!(w.frame f).written.contains o) = true then
        observeWrite f o >>= fun _ => pure r else pure r : StoreM α (Record α)).run v =
        .ok r (if (w.frame f).written.contains o then v else v.afterObserver f o) := by
    cases (w.frame f).written.contains o <;> simp [observeWrite_run, -bind_pure_comp]
  unfold prepareWrite writableIn
  rw [EStateM.run_bind, EStateM.run_get]
  dsimp only
  cases hactive : (w.frame f).isActive with
  | false => rfl
  | true =>
  cases hreadOnly : (w.frame f).options.readOnly with
  | true => rfl
  | false =>
  cases hforeign : (w.frame f).manager != (w.object o).manager with
  | true => rfl
  | false =>
  simp only [Bool.not_true, Bool.false_eq_true, if_false]
  rw [hnote]
  cases hmine : (w.object o).chain.find? (w.frame f).generation with
  | some r =>
    simp only [EStateM.run_bind, EStateM.run_pure]
    rw [hobserve]
  | none =>
    dsimp only
    rw [EStateM.run_bind, branch_run_noteWrite]
    cases w.select? o (w.frame f).view with
    | none => rfl
    | some base =>
      dsimp only
      rw [hobserve]

/-! ## Finding or branching the record -/

/-- To note a write changes nothing on the ledger. -/
@[simp] theorem ledger_noteWrite (w : World α) (f : FrameId) (o : ObjectId) :
    (w.noteWrite f o).ledger = w.ledger := by
  unfold noteWrite
  split <;> rfl

/-- To note a write changes no frame's generation. -/
theorem generation_noteWrite (w : World α) (f : FrameId) (o : ObjectId) (h : FrameId) :
    ((w.noteWrite f o).frame h).generation = (w.frame h).generation :=
  congrArg Visibility.generation (view_noteWrite w f o h)

/-- To note a write opens no frame. -/
theorem length_frames_noteWrite (w : World α) (f : FrameId) (o : ObjectId) :
    (w.noteWrite f o).frames.length = w.frames.length := by
  unfold noteWrite
  split
  · rfl
  · rw [touch, length_frames_modifyFrame, length_frames_modifyFrame]

/-- To note a write makes no object. -/
theorem length_objects_noteWrite (w : World α) (f : FrameId) (o : ObjectId) :
    (w.noteWrite f o).objects.length = w.objects.length := by
  unfold noteWrite
  split <;> rfl

/-- The frame touches the object before it writes it, for all that it matters. -/
theorem noteWrite_of_notMem {f : FrameId} {o : ObjectId}
    (h : (w.frame f).written.contains o = false) :
    w.noteWrite f o = (w.touch f o).modifyFrame f fun frame =>
      { frame with written := frame.written ++ [o] } := by
  rw [noteWrite, h, if_neg Bool.false_ne_true]
  simp only [touch, modifyFrame, List.modify_modify_eq]
  congr 2
  funext frame
  simp only [Function.comp_apply]
  split <;> rfl

/-- To note a write has no effect on the ledger. -/
theorem follows_noteWrite (hw : w.Tidy) (f : FrameId) {o : ObjectId}
    (ho : o < w.objects.length) : Follows (w.noteWrite f o) w [] := by
  cases hwritten : (w.frame f).written.contains o with
  | true =>
    rw [noteWrite, if_pos hwritten]
    exact .refl hw
  | false =>
    rw [noteWrite_of_notMem hwritten]
    refine (follows_touch hw f ho).trans
      (.modifyFrame (hw.touch f ho) f (fun _ => rfl) fun hf hfits => ?_)
    rw [World.touch, length_frames_modifyFrame] at hf
    exact hfits.write (mem_touched_touch hf o)

/-- A noted write is to an object that the frame touched. -/
theorem mem_touched_noteWrite (hw : w.Tidy) {f : FrameId} (hf : f < w.frames.length)
    (o : ObjectId) : o ∈ ((w.noteWrite f o).frame f).touched := by
  cases hwritten : (w.frame f).written.contains o with
  | true =>
    rw [noteWrite, if_pos hwritten]
    exact (hw.fits f hf).written o (List.contains_iff_mem.mp hwritten)
  | false =>
    rw [noteWrite_of_notMem hwritten, frame_modifyFrame (by simpa [touch] using hf), if_pos rfl]
    exact mem_touched_touch hf o

/-- What finding or branching the record to write does to the ledger. -/
def linkEffects (w : World α) (f : FrameId) (o : ObjectId) (r : Record α) : List (Effect α) :=
  match (w.object o).chain.find? (w.frame f).generation with
  | some _ => []
  | none => [.branched o r]

/-- A write that finds its record is by an open frame, and the record is the frame's own or is
branched from the one that the frame selects. -/
theorem of_prepareWrite {f : FrameId} {o : ObjectId} {r : Record α} {v : World α}
    (h : w.prepareWrite f o = (.ok r, v)) :
    (w.frame f).isActive = true ∧
      ((w.object o).chain.find? (w.frame f).generation = some r ∧ v = w.noteWrite f o ∨
        (w.object o).chain.find? (w.frame f).generation = none ∧
          ∃ base, w.select? o (w.frame f).view = some base ∧ r = base.branchedFor (w.frame f) ∧
            v = (w.noteWrite f o).modifyChain o (·.link r)) := by
  unfold prepareWrite at h
  dsimp only at h
  split at h
  · cases h
  split at h
  · cases h
  split at h
  · cases h
  next hactive _ _ =>
  refine ⟨by simpa using hactive, ?_⟩
  split at h
  · next hfind =>
    obtain ⟨hr, hv⟩ := Prod.mk.inj h
    obtain rfl := Except.ok.inj hr
    exact Or.inl ⟨hfind, hv.symm⟩
  · next hfind =>
    split at h
    · cases h
    · next base hbase =>
      obtain ⟨hr, hv⟩ := Prod.mk.inj h
      obtain rfl := Except.ok.inj hr
      exact Or.inr ⟨hfind, base, hbase, rfl, hv.symm⟩

/-- The record to write is of the frame's generation. -/
theorem generation_of_prepareWrite {f : FrameId} {o : ObjectId} {r : Record α} {v : World α}
    (h : w.prepareWrite f o = (.ok r, v)) : r.generation = (w.frame f).generation := by
  rcases of_prepareWrite h with ⟨-, ⟨hfind, -⟩ | ⟨-, base, -, rfl, -⟩⟩
  · exact (Chain.mem_of_find? hfind).2
  · rfl

/-- Apart from the ledger all that a write prepares is that it is noted. -/
theorem outline_prepareWrite {f : FrameId} {o : ObjectId} {r : Record α} {v : World α}
    (h : w.prepareWrite f o = (.ok r, v)) : v.outline = (w.noteWrite f o).outline := by
  rcases of_prepareWrite h with ⟨-, ⟨-, rfl⟩ | ⟨-, base, -, -, rfl⟩⟩
  · rfl
  · rw [outline_modifyChain]

/-- The frame that writes stays what it was, but for what it touched and wrote. -/
theorem frame_prepareWrite {β : Type} (p : Frame → β)
    (htouched : ∀ frame touched, p { frame with touched := touched } = p frame)
    (hwritten : ∀ frame written, p { frame with written := written } = p frame)
    {f : FrameId} {o : ObjectId} {r : Record α} {v : World α}
    (h : w.prepareWrite f o = (.ok r, v)) (k : FrameId) : p (v.frame k) = p (w.frame k) := by
  have hframes : v.frames = (w.noteWrite f o).frames :=
    congrArg Outline.frames (outline_prepareWrite h)
  rw [frame, hframes, ← frame]
  exact frame_noteWrite p htouched hwritten w f o k

/-- To prepare a write opens no frame. -/
theorem length_frames_prepareWrite {f : FrameId} {o : ObjectId} {r : Record α} {v : World α}
    (h : w.prepareWrite f o = (.ok r, v)) : v.frames.length = w.frames.length :=
  (congrArg (fun outline => outline.frames.length) (outline_prepareWrite h)).trans
    (length_frames_noteWrite w f o)

/-- To prepare a write makes no object. -/
theorem length_objects_prepareWrite {f : FrameId} {o : ObjectId} {r : Record α} {v : World α}
    (h : w.prepareWrite f o = (.ok r, v)) : v.objects.length = w.objects.length :=
  (length_objects_of_identities (congrArg Outline.identities (outline_prepareWrite h))).trans
    (length_objects_noteWrite w f o)

/-- A write that is a violation leaves the chains alone. -/
theorem of_prepareWrite_error {f : FrameId} {o : ObjectId} {violation : Violation} {v : World α}
    (h : w.prepareWrite f o = (.error violation, v)) : v = w ∨ v = w.noteWrite f o := by
  unfold prepareWrite at h
  dsimp only at h
  split at h
  · exact Or.inl (Prod.mk.inj h).2.symm
  split at h
  · exact Or.inl (Prod.mk.inj h).2.symm
  split at h
  · exact Or.inl (Prod.mk.inj h).2.symm
  split at h
  · cases h
  split at h
  · exact Or.inr (Prod.mk.inj h).2.symm
  · cases h

/-- On the ledger the record to write is branched, if the frame had none of its own. -/
theorem ledger_prepareWrite {f : FrameId} {o : ObjectId} {r : Record α} {v : World α}
    (ho : o < w.objects.length) (h : w.prepareWrite f o = (.ok r, v)) :
    v.ledger = w.ledger.run (w.linkEffects f o r) := by
  rw [linkEffects]
  rcases of_prepareWrite h with ⟨-, ⟨hfind, rfl⟩ | ⟨hfind, base, -, -, rfl⟩⟩
  · rw [hfind, ledger_noteWrite]
    rfl
  · rw [hfind, ledger_modifyChain ((length_objects_noteWrite w f o).symm ▸ ho),
      ledger_noteWrite]
    rfl

/-- The ledger admits the branching of the record to write. -/
theorem admitsAll_linkEffects (hw : w.Tidy) {f : FrameId} (hf : f < w.frames.length)
    {o : ObjectId} {r : Record α} {v : World α} (h : w.prepareWrite f o = (.ok r, v)) :
    w.ledger.AdmitsAll (w.linkEffects f o r) := by
  rw [linkEffects]
  rcases of_prepareWrite h with ⟨hactive, ⟨hfind, rfl⟩ | ⟨hfind, base, hselect, rfl, rfl⟩⟩
  · rw [hfind]
    trivial
  · obtain ⟨invalid, hview, hentry⟩ := hw.entry hf hactive
    rw [hfind]
    rw [hview] at hselect
    exact ⟨.branched hentry hfind hselect rfl rfl, trivial⟩

/-- A write that is prepared leaves the world tidy, by what it links. -/
theorem follows_prepareWrite (hw : w.Tidy) {f : FrameId} (hf : f < w.frames.length)
    {o : ObjectId} (ho : o < w.objects.length) {r : Record α} {v : World α}
    (h : w.prepareWrite f o = (.ok r, v)) : Follows v w (w.linkEffects f o r) := by
  have hnoted := follows_noteWrite hw f ho
  have hout := outline_prepareWrite h
  have hadmits := admitsAll_linkEffects hw hf h
  have hledger := ledger_prepareWrite ho h
  have hsame := ledger_noteWrite w f o
  refine ⟨hnoted.tidy.of_effects hout (hsame ▸ hledger) (hsame ▸ hadmits) ?_ ?_, hledger, hadmits,
    hout ▸ hnoted.keeps⟩
  · intro k _ _ effect heffect
    rw [linkEffects] at heffect
    split at heffect
    · cases heffect
    · rw [List.mem_singleton.mp heffect]
      nofun
  · intro k hk _ effect heffect p hlinks
    rw [linkEffects] at heffect
    split at heffect
    · cases heffect
    · rw [List.mem_singleton.mp heffect] at hlinks
      obtain ⟨rfl, hgen⟩ := Prod.mk.inj (Option.some.inj hlinks)
      rw [generation_noteWrite, generation_of_prepareWrite h] at hgen
      rw [length_frames_noteWrite] at hk
      obtain rfl := hw.eq_of_generation_eq hf hk hgen
      exact mem_touched_noteWrite hw hf _

/-- A write that is refused has no effect on the ledger. -/
theorem follows_prepareWrite_error (hw : w.Tidy) {f : FrameId} {o : ObjectId}
    (ho : o < w.objects.length) {violation : Violation} {v : World α}
    (h : w.prepareWrite f o = (.error violation, v)) : Follows v w [] := by
  rcases of_prepareWrite_error h with rfl | rfl
  · exact .refl hw
  · exact follows_noteWrite hw f ho

/-! ## Telling the observer -/

/-- What the observer of a frame, told of a first write, does to the ledger. -/
def observerEffects (w : World α) (f : FrameId) (o : ObjectId) : List (Effect α) :=
  if (w.frame f).options.observed then
    match (w.frame f).options.closing? with
    | none => []
    | some .commit => (w.tellWrite f o).commitEffects f
    | some .discard => [.discarded (w.frame f).generation]
  else []

/-- To tell observers something has no effect on the ledger. -/
theorem follows_tell (hw : w.Tidy) (event : Event) : Follows (w.tell event) w [] :=
  .of_same hw rfl rfl

/-- To tell the observer of a write has no effect on the ledger. -/
theorem follows_tellWrite (hw : w.Tidy) (f : FrameId) (o : ObjectId) :
    Follows (w.tellWrite f o) w [] := by
  have htold := follows_tell hw (.wrote o)
  exact htold.trans (.modifyFrame htold.tidy f (fun _ => rfl) fun _ hfits =>
    hfits.of_eq rfl rfl rfl rfl id)

/-- The observer of the frame has one first write less to let pass, or closes it no more. -/
theorem frame_tellWrite {f : FrameId} (hf : f < w.frames.length) (o : ObjectId) :
    (w.tellWrite f o).frame f =
      { w.frame f with options := (w.frame f).options.afterFirstWrite } := by
  have hf' : f < (w.tell (.wrote o)).frames.length := hf
  rw [tellWrite, frame_modifyFrame hf', if_pos rfl]
  rfl

/-- The observer of an open frame does what it chose, and nothing else. -/
theorem follows_afterObserver (hw : w.Tidy) {f : FrameId} (hf : f < w.frames.length)
    (hactive : (w.frame f).isActive = true) (o : ObjectId) :
    Follows (w.afterObserver f o) w (w.observerEffects f o) := by
  have htold := follows_tellWrite hw f o
  have hframe := frame_tellWrite hf o
  have hf' : f < (w.tellWrite f o).frames.length := by
    rwa [tellWrite, length_frames_modifyFrame]
  have hactive' : ((w.tellWrite f o).frame f).isActive = true := by
    rw [hframe]
    exact hactive
  have hgen : ((w.tellWrite f o).frame f).generation = (w.frame f).generation := by
    rw [hframe]
    rfl
  rw [afterObserver, observerEffects]
  split
  · split
    · exact htold
    · exact htold.trans (follows_commitActive htold.tidy hf' hactive')
    · exact htold.trans (hgen ▸ follows_discardActive htold.tidy hf' hactive')
  · exact .refl hw

/-- An observer makes no objects. -/
theorem length_objects_afterObserver (hw : w.Tidy) {f : FrameId} (hf : f < w.frames.length)
    (hactive : (w.frame f).isActive = true) (o : ObjectId) :
    (w.afterObserver f o).objects.length = w.objects.length := by
  have hframe := frame_tellWrite hf o
  have hf' : f < (w.tellWrite f o).frames.length := by
    rwa [tellWrite, length_frames_modifyFrame]
  have hactive' : ((w.tellWrite f o).frame f).isActive = true := by
    rw [hframe]
    exact hactive
  apply length_objects_of_identities
  rw [afterObserver]
  split
  · split
    · rfl
    · rw [(commitActive_spec (follows_tellWrite hw f o).tidy hf' hactive').2.2]
      rfl
    · rw [outline_discardActive]
      rfl
  · rfl

/-! ## Storing the value -/

/-- To store a value has one effect on the ledger. -/
theorem ledger_store {o : ObjectId} (ho : o < w.objects.length) (g : Generation)
    (change : α → α) : (w.store o g change).ledger = w.ledger.apply (.stored o g change) := by
  rw [store, ledger_modifyChain ho, Ledger.apply]
  rfl

/-- To store a value leaves a world tidy, by its one effect on the ledger. -/
theorem follows_store (hw : w.Tidy) {o : ObjectId} (ho : o < w.objects.length) (g : Generation)
    (change : α → α) : Follows (w.store o g change) w [.stored o g change] :=
  .of_effect hw (outline_modifyChain ..) (ledger_store ho g change) (.stored o g change) rfl rfl

end World

end VersionedObjects.Store
