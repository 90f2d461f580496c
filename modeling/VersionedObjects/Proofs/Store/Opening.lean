import VersionedObjects.Proofs.Store.Closing

/-!
# Opening frames and making objects

What opening a frame, making an object and holding on to a frame do to a tidy world. A new frame
takes the next generation of the clock and is shown exactly what is committed; a new object
belongs to the current frame, if that one is open and may write, or is committed at once.
-/

namespace VersionedObjects.Store

variable {α : Type}

namespace World

variable {w : World α}

/-! ## Opening a frame -/

/-- The frame that is opened next. -/
def nextFrame (w : World α) (options : FrameOptions) : Frame :=
  { manager := 0, view := .ofFrame w.ledger.next w.ledger.table.generations, options }

/-- Where the table is full no frame is opened and nothing is changed. -/
theorem openFrame_full (options : FrameOptions)
    (h : w.outline.config.maxOpenFrames ≤ w.ledger.table.length) :
    w.openFrame 0 options =
      (.error (.tooManyOpenFrames w.outline.config.maxOpenFrames), w) := by
  have h' : (w.manager 0).config.maxOpenFrames ≤ (w.manager 0).openTable.length := h
  rw [openFrame, if_pos h']
  rfl

/-- Unless there are too many open frames, the new frame comes last, and its generation is
open. -/
theorem openFrame_spec (hsole : w.managers.length = 1) (options : FrameOptions)
    (h : ¬ w.outline.config.maxOpenFrames ≤ w.ledger.table.length) :
    (w.openFrame 0 options).1 = .ok w.frames.length ∧
      (w.openFrame 0 options).2.ledger = w.ledger.apply .opened ∧
      (w.openFrame 0 options).2.outline =
        { w.outline with frames := w.frames ++ [w.nextFrame options] } := by
  have h' : ¬ (w.manager 0).config.maxOpenFrames ≤ (w.manager 0).openTable.length := h
  rw [openFrame, if_neg h']
  dsimp only
  refine ⟨?_, ?_, ?_⟩
  · simp [World.modifyManager]
  · rw [ledger_count]
    exact ledger_modifyManager (w := { w with frames := w.frames ++ [w.nextFrame options] }) hsole
      (·.openNext w.ledger.table.generations)
  · rw [outline_count]
    exact outline_modifyManager { w with frames := w.frames ++ [w.nextFrame options] } 0
      fun _ => rfl

/-- To open a frame leaves a world tidy, also when it is refused. -/
theorem Tidy.openFrame (hw : w.Tidy) (options : FrameOptions) :
    (w.openFrame 0 options).2.Tidy := by
  by_cases h : w.outline.config.maxOpenFrames ≤ w.ledger.table.length
  · rwa [openFrame_full options h]
  obtain ⟨-, hledger, houtline⟩ := openFrame_spec hw.sole options h
  generalize (w.openFrame 0 options).2 = v at hledger houtline
  have hframes : v.frames = w.frames ++ [w.nextFrame options] :=
    congrArg Outline.frames houtline
  have hlength : v.frames.length = w.frames.length + 1 := by simp [hframes]
  have hids : v.outline.identities = w.outline.identities := by rw [houtline]
  have hold {f : FrameId} (hf : f < w.frames.length) : v.frame f = w.frame f := by
    simp [frame, hframes, List.getElem?_append_left hf]
  have hnew : v.frame w.frames.length = w.nextFrame options := by
    simp [frame, hframes]
  refine ⟨?_, ?_, ?_, ?_, ?_, ?_⟩
  · exact (congrArg Outline.managers houtline).trans hw.sole
  · rw [hledger]
    exact hw.sound.apply .opened
  · intro o
    rw [(object_of_identities hids o).1]
    exact hw.owner o
  · intro f hf
    rw [hlength]
    exact Nat.lt_succ_of_lt (hw.current f ((congrArg Outline.current houtline).symm.trans hf))
  · intro f h hlt hh
    rw [hlength] at hh
    rw [hold (Nat.lt_of_lt_of_le hlt (Nat.le_of_lt_succ hh))]
    rcases Nat.lt_succ_iff_lt_or_eq.mp hh with hh | rfl
    · rw [hold hh]
      exact hw.distinct f h hlt hh
    · rw [hnew]
      exact (hw.fits f hlt).minted
  · intro f hf
    rw [hlength] at hf
    rw [hledger, length_objects_of_identities hids]
    rcases Nat.lt_succ_iff_lt_or_eq.mp hf with hf | rfl
    · rw [hold hf]
      exact (hw.fits f hf).apply hw.sound (fun _ => (Option.some_ne_none _).symm)
        fun _ o hlinks => absurd hlinks (Option.some_ne_none _).symm
    · rw [hnew]
      refine ⟨rfl, Nat.lt_succ_self _, List.nodup_nil, fun o ho => ?_, fun o ho => ?_, fun _ => ?_,
        ?_⟩
      · cases ho
      · cases ho
      · exact ⟨_, rfl, List.mem_append_right _ (List.mem_singleton_self _)⟩
      · -- No record is of a generation that was not taken from the clock.
        intro _ o r hr hgen
        exact absurd hgen (Nat.ne_of_lt ((hw.sound.coherent o).minted r hr))

/-- To open a frame opens one generation on the ledger, or none where the table is full. -/
theorem follows_openFrame (hw : w.Tidy) (options : FrameOptions) :
    Follows (w.openFrame 0 options).2 w
      (if w.outline.config.maxOpenFrames ≤ w.ledger.table.length then [] else [.opened]) := by
  split
  · next h =>
    rw [openFrame_full options h]
    exact .refl hw
  · next h =>
    obtain ⟨-, hledger, houtline⟩ := openFrame_spec hw.sole options h
    exact ⟨hw.openFrame options, hledger, ⟨.opened, trivial⟩, houtline ▸ .addFrame _ _⟩

/-! ## Touching an object -/

/-- To touch an object is noted in the outline. -/
theorem outline_touch (w : World α) (f : FrameId) (o : ObjectId) :
    (w.touch f o).outline = w.outline.modifyFrame f fun frame =>
      if frame.touched.contains o then frame
      else { frame with touched := frame.touched ++ [o] } :=
  rfl

/-- To touch an object that was made leaves a world tidy. -/
theorem Tidy.touch (hw : w.Tidy) (f : FrameId) {o : ObjectId} (ho : o < w.objects.length) :
    (w.touch f o).Tidy := by
  refine hw.modifyFrame f (fun frame => ?_) fun _ hfits => ?_
  · split <;> rfl
  · split
    · exact hfits
    · next hnew => exact hfits.touch ho fun h => hnew (List.contains_iff_mem.mpr h)

/-- To touch an object keeps what was opened. -/
theorem keeps_touch (w : World α) (f : FrameId) (o : ObjectId) :
    (w.touch f o).outline.Keeps w.outline := by
  rw [outline_touch]
  refine .modifyFrame _ _ fun frame => ?_
  split <;> rfl

/-- To touch an object has no effect on the ledger. -/
theorem follows_touch (hw : w.Tidy) (f : FrameId) {o : ObjectId} (ho : o < w.objects.length) :
    Follows (w.touch f o) w [] :=
  .of_eq (hw.touch f ho) rfl (w.keeps_touch f o)

/-- An object that a frame touches is one of those that it has touched. -/
theorem mem_touched_touch {f : FrameId} (hf : f < w.frames.length) (o : ObjectId) :
    o ∈ ((w.touch f o).frame f).touched := by
  rw [World.touch, frame_modifyFrame hf, if_pos rfl]
  split
  · next h => exact List.contains_iff_mem.mp h
  · exact List.mem_append_right _ (List.mem_singleton_self o)

/-- To touch an object changes no frame's generation. -/
theorem generation_touch (w : World α) (f : FrameId) (o : ObjectId) (h : FrameId) :
    ((w.touch f o).frame h).generation = (w.frame h).generation := by
  by_cases hf : f < w.frames.length
  · rw [World.touch, frame_modifyFrame hf]
    split
    · split <;> rfl
    · rfl
  · rw [World.touch, World.modifyFrame, List.modify_eq_self (Nat.le_of_not_lt hf)]

/-! ## Making an object -/

/-- The world with one more object. -/
def addObject (w : World α) (object : Object α) : World α :=
  { w with objects := w.objects ++ [object] }

/-- The object that is made next, before it has a record. -/
def blankObject (typeName : String) (merge : α → α → α → Option α) : Object α :=
  { manager := 0, typeName, merge, chain := ⟨[]⟩ }

/-- An object that is added comes last, and the others stay what they were. -/
theorem object_addObject (w : World α) (object : Object α) (o : ObjectId) :
    (w.addObject object).object o = if o = w.objects.length then object else w.object o := by
  simp only [World.object, addObject]
  split
  · next ho => simp [ho]
  · next ho =>
    rcases Nat.lt_or_gt_of_ne ho with hlt | hgt
    · rw [List.getElem?_append_left hlt]
    · have hlen : (w.objects ++ [object]).length ≤ o := by
        rw [List.length_append]
        exact hgt
      rw [List.getElem?_eq_none hlen, List.getElem?_eq_none (Nat.le_of_lt hgt)]

/-- An object that is added brings its chain to the ledger. -/
theorem ledger_addObject (w : World α) (object : Object α) :
    (w.addObject object).ledger =
      w.ledger.modifyChain w.objects.length fun _ => object.chain := by
  rw [ledger, Ledger.modifyChain, Ledger.mk.injEq]
  refine ⟨rfl, rfl, funext fun o => ?_⟩
  rw [object_addObject]
  split <;> rfl

/-- An object that is added brings its identity to the outline. -/
theorem outline_addObject (w : World α) (object : Object α) :
    (w.addObject object).outline =
      { w.outline with identities := w.outline.identities ++
          [(object.manager, object.typeName, object.merge)] } := by
  simp [outline, addObject, manager]

/-- An object without records is no different from one that was not made yet. -/
theorem ledger_addBlank (w : World α) (typeName : String) (merge : α → α → α → Option α) :
    (w.addObject (blankObject typeName merge)).ledger = w.ledger := by
  rw [ledger_addObject, Ledger.modifyChain]
  congr 1
  funext o
  split
  · next ho =>
    subst ho
    have hnil := chain_eq_nil (w := w) (Nat.le_refl _)
    rw [blankObject, ← hnil]
    rfl
  · rfl

/-- An object without records may be added to a tidy world. -/
theorem Tidy.addBlank (hw : w.Tidy) (typeName : String) (merge : α → α → α → Option α) :
    (w.addObject (blankObject typeName merge)).Tidy := by
  have hledger := w.ledger_addBlank typeName merge
  refine ⟨hw.sole, hledger ▸ hw.sound, fun o => ?_, hw.current, hw.distinct, fun f hf => ?_⟩
  · rw [object_addObject]
    split
    · rfl
    · exact hw.owner o
  · rw [hledger]
    refine (hw.fits f hf).mono ?_
    rw [addObject, List.length_append]
    exact Nat.le_add_right _ _

/-- An object made inside a frame belongs to the frame. -/
theorem newObject_making {f : FrameId} (h : w.makingFrame? 0 = some f) (typeName : String)
    (merge : α → α → α → Option α) (initial : α) :
    w.newObject 0 typeName merge initial =
      (w.objects.length, (w.addObject { blankObject typeName merge with
        chain := .singleton { generation := (w.frame f).generation, base := none,
                              value := initial } }).touch f w.objects.length) := by
  rw [newObject, h]
  rfl

/-- An object made outside of frames is committed at once. -/
theorem newObject_outside (h : w.makingFrame? 0 = none) (typeName : String)
    (merge : α → α → α → Option α) (initial : α) :
    w.newObject 0 typeName merge initial =
      (w.objects.length, (w.mint 0).2.addObject { blankObject typeName merge with
        chain := .singleton { generation := w.ledger.next, base := none, value := initial } }) := by
  rw [newObject, h]
  rfl

/-- The frame that a new object would belong to is open and current. -/
theorem of_makingFrame? (hw : w.Tidy) {f : FrameId} (h : w.makingFrame? 0 = some f) :
    f < w.frames.length ∧ (w.frame f).isActive = true ∧ w.current = some f := by
  simp only [makingFrame?, currentFrameOf?, Option.filter_eq_some_iff, Bool.and_eq_true] at h
  exact ⟨hw.current f h.1.1, h.2.1, h.1.1⟩

/-- What making an object does to the ledger. -/
def makingEffect (w : World α) (initial : α) : Effect α :=
  match w.makingFrame? 0 with
  | some f => .founded w.objects.length (w.frame f).generation initial
  | none => .created w.objects.length initial

/-- A new object has the next number. -/
theorem newObject_fst (w : World α) (typeName : String) (merge : α → α → α → Option α)
    (initial : α) : (w.newObject 0 typeName merge initial).1 = w.objects.length := by
  rw [newObject]
  split <;> rfl

/-- To make an object has one effect on the ledger. -/
theorem ledger_newObject (hsole : w.managers.length = 1) (typeName : String)
    (merge : α → α → α → Option α) (initial : α) :
    (w.newObject 0 typeName merge initial).2.ledger =
      w.ledger.apply (w.makingEffect initial) := by
  rw [makingEffect]
  cases h : w.makingFrame? 0 with
  | some f =>
    rw [newObject_making h]
    dsimp only
    rw [ledger_touch, ledger_addObject, Ledger.apply]
  | none =>
    have hmint : (w.mint 0).2.ledger = w.ledger.tick :=
      ledger_modifyManager hsole fun manager => { manager with next := manager.next + 1 }
    rw [newObject_outside h]
    dsimp only
    rw [ledger_addObject, hmint, Ledger.apply]
    rfl

/-- The world with the object made but without its record. -/
def withBlank (w : World α) (typeName : String) (merge : α → α → α → Option α) : World α :=
  match w.makingFrame? 0 with
  | some f => (w.addObject (blankObject typeName merge)).touch f w.objects.length
  | none => w.addObject (blankObject typeName merge)

/-- An object without records changes nothing on the ledger. -/
theorem ledger_withBlank (w : World α) (typeName : String) (merge : α → α → α → Option α) :
    (w.withBlank typeName merge).ledger = w.ledger := by
  rw [withBlank]
  split
  · exact w.ledger_addBlank typeName merge
  · exact w.ledger_addBlank typeName merge

/-- In the outline a new object is one without records. -/
theorem outline_newObject (w : World α) (typeName : String) (merge : α → α → α → Option α)
    (initial : α) : (w.newObject 0 typeName merge initial).2.outline =
      (w.withBlank typeName merge).outline := by
  rw [withBlank]
  cases h : w.makingFrame? 0 with
  | some f =>
    rw [newObject_making h]
    dsimp only
    rw [outline_touch, outline_touch, outline_addObject, outline_addObject]
  | none =>
    have hmint : (w.mint 0).2.outline = w.outline :=
      outline_modifyManager w 0 fun _ => rfl
    rw [newObject_outside h]
    dsimp only
    rw [outline_addObject, hmint, outline_addObject]

/-- The ledger admits the making of an object. -/
theorem admits_makingEffect (hw : w.Tidy) (initial : α) :
    w.ledger.Admits (w.makingEffect initial) := by
  rw [makingEffect]
  cases h : w.makingFrame? 0 with
  | some f =>
    obtain ⟨hf, hactive, -⟩ := of_makingFrame? hw h
    exact .founded (chain_eq_nil (Nat.le_refl _)) (hw.generation_mem hf hactive)
  | none => exact .created (chain_eq_nil (Nat.le_refl _))

/-- The world with the object that is about to be made is tidy. -/
theorem Tidy.withBlank (hw : w.Tidy) (typeName : String) (merge : α → α → α → Option α) :
    (w.withBlank typeName merge).Tidy := by
  rw [World.withBlank]
  split
  · refine (hw.addBlank typeName merge).touch _ ?_
    simp [addObject]
  · exact hw.addBlank typeName merge

/-- Making an object leaves the frames alone, but for what the making frame touched. -/
theorem keeps_withBlank (w : World α) (typeName : String) (merge : α → α → α → Option α) :
    (w.withBlank typeName merge).outline.Keeps w.outline := by
  have hblank : (w.addObject (blankObject typeName merge)).outline.Keeps w.outline := by
    rw [outline_addObject]
    exact .of_eq rfl rfl
  rw [withBlank]
  split
  · exact hblank.trans (keeps_touch ..)
  · exact hblank

/-- To make an object leaves a tidy world, by its one effect on the ledger. -/
theorem follows_newObject (hw : w.Tidy) (typeName : String) (merge : α → α → α → Option α)
    (initial : α) :
    Follows (w.newObject 0 typeName merge initial).2 w [w.makingEffect initial] := by
  have hblank := w.ledger_withBlank typeName merge
  have hout := w.outline_newObject typeName merge initial
  have hledger : (w.newObject 0 typeName merge initial).2.ledger =
      w.ledger.run [w.makingEffect initial] := ledger_newObject hw.sole typeName merge initial
  have hadmits : w.ledger.AdmitsAll [w.makingEffect initial] :=
    ⟨admits_makingEffect hw initial, trivial⟩
  refine ⟨(hw.withBlank typeName merge).of_effects hout (hblank ▸ hledger) (hblank ▸ hadmits)
    ?_ ?_, hledger, hadmits, hout ▸ w.keeps_withBlank typeName merge⟩
  · intro f _ _ effect heffect
    rw [List.mem_singleton.mp heffect, makingEffect]
    split <;> nofun
  · intro h hh hactive effect heffect o hlinks
    rw [List.mem_singleton.mp heffect, makingEffect] at hlinks
    rw [World.withBlank] at hh hactive hlinks ⊢
    cases hmaking : w.makingFrame? 0 with
    | none =>
      simp only [hmaking] at hlinks
      cases hlinks
    | some f =>
      obtain ⟨hf, -, -⟩ := of_makingFrame? hw hmaking
      simp only [hmaking] at hh hlinks ⊢
      obtain ⟨rfl, hgen⟩ := Prod.mk.inj (Option.some.inj hlinks)
      rw [generation_touch] at hgen
      rw [World.touch, length_frames_modifyFrame] at hh
      obtain rfl := hw.eq_of_generation_eq hf hh hgen
      exact mem_touched_touch hh _

/-! ## Holding on to a frame -/

/-- To hold on to a frame has no effect on the ledger. -/
theorem follows_hold (hw : w.Tidy) (f : FrameId) : Follows (w.hold f) w [] :=
  .modifyFrame hw f (fun _ => rfl) fun _ hfits =>
    hfits.of_eq rfl rfl rfl rfl id

/-- What discarding a frame does to the ledger. -/
def discardEffects (w : World α) (f : FrameId) : List (Effect α) :=
  if (w.frame f).isActive then [.discarded (w.frame f).generation] else []

/-- To discard a frame has the effect on the ledger that the frame's state tells. -/
theorem follows_discard (hw : w.Tidy) {f : FrameId} (hf : f < w.frames.length) :
    Follows (w.discard f) w (w.discardEffects f) := by
  rw [discard, discardEffects]
  split
  · next hactive => exact follows_discardActive hw hf hactive
  · exact .refl hw

/-- The world after a holder was taken away, before an open frame without holders is discarded. -/
def letGo (w : World α) (f : FrameId) : World α :=
  w.modifyFrame f fun frame => { frame with holders := frame.holders - 1 }

/-- To let go of a frame, without more, has no effect on the ledger. -/
theorem follows_letGo (hw : w.Tidy) (f : FrameId) : Follows (w.letGo f) w [] :=
  .modifyFrame hw f (fun _ => rfl) fun _ hfits =>
    hfits.of_eq rfl rfl rfl rfl id

/-- What taking away a holder does to the ledger. -/
def releaseEffects (w : World α) (f : FrameId) : List (Effect α) :=
  if ((w.letGo f).frame f).holders = 0 then (w.letGo f).discardEffects f else []

/-- To let go of a frame discards it on the ledger where nobody else holds on to it. -/
theorem follows_release (hw : w.Tidy) {f : FrameId} (hf : f < w.frames.length) :
    Follows (w.release f) w (w.releaseEffects f) := by
  have hletGo := follows_letGo hw f
  have hf' : f < (w.letGo f).frames.length := (length_frames_modifyFrame ..).symm ▸ hf
  rw [releaseEffects, release, ← letGo]
  split
  · exact hletGo.trans (follows_discard hletGo.tidy hf')
  · exact hletGo

/-! ## The current frame -/

/-- Any frame may become current. -/
theorem Tidy.setCurrent (hw : w.Tidy) {current : Option FrameId}
    (h : ∀ f, current = some f → f < w.frames.length) :
    World.Tidy { w with current := current } :=
  ⟨hw.sole, hw.sound, hw.owner, h, hw.distinct, hw.fits⟩

end World

end VersionedObjects.Store
