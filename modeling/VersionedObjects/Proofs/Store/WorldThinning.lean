import VersionedObjects.Proofs.Store.History
import VersionedObjects.Proofs.Store.LedgerThinning

/-!
# Thinned worlds

A world thins another one when it is the same but for what was trimmed: the other one trims only on
request, and its ledger is thinned. In both the same is read and committed. Main statement: whatever
is asked of the two worlds, as long as only the thinner one is asked to trim, it stays so.
-/

namespace VersionedObjects.Store

variable {α : Type}

/-- What a commit finds for the frame's own record of an object, the one that the frame inherits
and the newest committed one. -/
def CommitCheck.found (merge : α → α → α → Option α) (view : Visibility) :
    Option (Record α) → Option (Record α) → Option (Record α) → CommitCheck α
  | some mine, some base, some newest =>
    if view.canSee newest.generation then .clean
    else
      match merge mine.value base.value newest.value with
      | some value => .merge newest.generation value
      | none => .conflict newest.generation
  | _, _, _ => .clean

/-- Where a record is missing there is nothing to merge and no conflict. -/
theorem CommitCheck.found_of_none {merge : α → α → α → Option α} {view : Visibility}
    {mine base newest : Option (Record α)} (h : mine = none ∨ base = none ∨ newest = none) :
    CommitCheck.found merge view mine base newest = .clean := by
  cases mine <;> cases base <;> cases newest <;> simp_all [found]

namespace World

variable {a b v u w : World α} {effects : List (Effect α)} {f : FrameId}

/-- The commit check depends on what three readers find in the chain. -/
theorem checkCommit_eq_found (hw : w.Tidy) (hf : f < w.frames.length)
    (hactive : (w.frame f).isActive = true) (o : ObjectId) :
    (w.object o).checkCommit (w.frame f).view (w.manager 0).isOpen =
      .found (w.object o).merge (w.frame f).view
        ((w.ledger.chain o).find? (w.frame f).generation)
        ((w.ledger.chain o).inherited? w.ledger.table.generations (w.frame f).view)
        (w.ledger.newest? o) := by
  have hc := hw.sound.coherent o
  rcases checkCommit_cases hw hf hactive o with
    ⟨hcheck, hclean⟩ | ⟨mine, base, newest, hcontended, hcheck⟩
  · rw [hcheck]
    cases hmine : (w.ledger.chain o).find? (w.frame f).generation with
    | none => rw [CommitCheck.found_of_none (Or.inl rfl)]
    | some mine =>
    cases hbase : (w.ledger.chain o).inherited? w.ledger.table.generations (w.frame f).view with
    | none => rw [CommitCheck.found_of_none (Or.inr (Or.inl rfl))]
    | some base =>
    cases hnewest : w.ledger.newest? o with
    | none => rw [CommitCheck.found_of_none (Or.inr (Or.inr rfl))]
    | some newest =>
      obtain ⟨hmem, hgen⟩ := Chain.mem_of_find? hmine
      obtain ⟨hnewmem, hcommitted, -⟩ := hc.inherited?_snapshot_eq_some_iff.mp hnewest
      rw [CommitCheck.found, if_pos (hclean mine hmem hgen newest hnewmem hcommitted)]
  · have hmine : (w.ledger.chain o).find? (w.frame f).generation = some mine :=
      hcontended.mine_eq
    have hnewest : w.ledger.newest? o = some newest := hcontended.newest_eq
    rw [hcheck, hmine, hcontended.inherited, hnewest]
    cases hmerge : (w.object o).merge mine.value base.value newest.value <;>
      simp only [CommitCheck.found, hcontended.unseen, hmerge, Bool.false_eq_true, if_false]

/-- Worlds in which the check of every object finds the same have the same to merge. -/
theorem checkTouched_congr {view : Visibility} {isOpen isOpen' : Generation → Bool}
    {objects : List ObjectId} (h : ∀ o ∈ objects,
      (v.object o).checkCommit view isOpen = (w.object o).checkCommit view isOpen') :
    v.checkTouched view isOpen objects = w.checkTouched view isOpen' objects := by
  induction objects with
  | nil => rfl
  | cons o rest ih =>
    rw [checkTouched, checkTouched, h o List.mem_cons_self,
      ih fun p hp => h p (List.mem_cons_of_mem o hp)]

/-- The outline of a world that trims only on request. -/
def Outline.onRequest (outline : Outline α) : Outline α :=
  { outline with config := { outline.config with gc := .manual } }

/-- The world is another one, which trims only on request, but for what was trimmed. -/
structure Thins (b a : World α) : Prop where
  tidy : b.Tidy
  tidy' : a.Tidy
  outline_eq : a.outline = b.outline.onRequest
  ledger : b.ledger.Thins a.ledger

namespace Thins

/-! ## What is the same -/

/-- Both worlds have the same frames. -/
theorem frames_eq (h : b.Thins a) : b.frames = a.frames :=
  (congrArg Outline.frames h.outline_eq).symm

/-- A frame is the same in both worlds. -/
theorem frame_eq (h : b.Thins a) (f : FrameId) : b.frame f = a.frame f := by
  rw [frame, frame, h.frames_eq]

/-- The same frame is current in both worlds. -/
theorem current_eq (h : b.Thins a) : b.current = a.current :=
  (congrArg Outline.current h.outline_eq).symm

/-- The objects have the same identities in both worlds. -/
theorem identities_eq (h : b.Thins a) : b.outline.identities = a.outline.identities :=
  (congrArg Outline.identities h.outline_eq).symm

/-- An object is of the same type in both worlds. -/
theorem typeName_eq (h : b.Thins a) (o : ObjectId) :
    (b.object o).typeName = (a.object o).typeName :=
  (object_of_identities h.identities_eq o).2.1

/-- An object is merged the same in both worlds. -/
theorem merge_eq (h : b.Thins a) (o : ObjectId) : (b.object o).merge = (a.object o).merge :=
  (object_of_identities h.identities_eq o).2.2

/-- An object belongs to the same manager in both worlds. -/
theorem owner_eq (h : b.Thins a) (o : ObjectId) : (b.object o).manager = (a.object o).manager :=
  (object_of_identities h.identities_eq o).1

/-- As many objects were made in both worlds. -/
theorem length_objects_eq (h : b.Thins a) : b.objects.length = a.objects.length :=
  length_objects_of_identities h.identities_eq

/-- The one world trims only on request. -/
theorem gc_eq (h : b.Thins a) : a.outline.config.gc = .manual := by
  rw [h.outline_eq]
  rfl

/-- Both worlds have room for the same number of open frames. -/
theorem maxOpenFrames_eq (h : b.Thins a) :
    b.outline.config.maxOpenFrames = a.outline.config.maxOpenFrames := by
  rw [h.outline_eq]
  rfl

/-- A call names what there is in both worlds or in neither. -/
theorem knows_eq (h : b.Thins a) (call : Call α) : b.knows call = a.knows call := by
  cases call <;>
    simp only [knows, hasFrame, hasObject, h.frames_eq, h.length_objects_eq, h.current_eq]

/-- A manager has the same current frame in both worlds. -/
theorem currentFrameOf?_eq (h : b.Thins a) (m : ManagerId) :
    b.currentFrameOf? m = a.currentFrameOf? m := by
  simp only [currentFrameOf?, h.current_eq, h.frame_eq]

/-- New objects belong to the same frame in both worlds. -/
theorem makingFrame?_eq (h : b.Thins a) (m : ManagerId) : b.makingFrame? m = a.makingFrame? m := by
  simp only [makingFrame?, h.currentFrameOf?_eq, h.frame_eq]

/-- An open frame has the same record of its own. -/
theorem find?_eq (h : b.Thins a) (hf : f < b.frames.length)
    (hactive : (b.frame f).isActive = true) (o : ObjectId) :
    (b.object o).chain.find? (b.frame f).generation =
      (a.object o).chain.find? (a.frame f).generation := by
  have hopen := h.tidy.generation_mem hf hactive
  rw [h.ledger.table_eq] at hopen
  rw [← h.frame_eq]
  exact h.ledger.find?_eq h.tidy.sound hopen o

/-- An open frame inherits the same record. -/
theorem inherited?_eq (h : b.Thins a) (hf : f < b.frames.length)
    (hactive : (b.frame f).isActive = true) (o : ObjectId) :
    (b.ledger.chain o).inherited? b.ledger.table.generations (b.frame f).view =
      (a.ledger.chain o).inherited? a.ledger.table.generations (a.frame f).view := by
  obtain ⟨invalid, hview, hentry⟩ := h.tidy.entry hf hactive
  rw [h.ledger.table_eq] at hentry
  rw [← h.frame_eq, hview]
  exact h.ledger.inherited?_eq hentry o

/-- An open frame reads the same record. -/
theorem select?_eq (h : b.Thins a) (hf : f < b.frames.length)
    (hactive : (b.frame f).isActive = true) (o : ObjectId) :
    b.select? o (b.frame f).view = a.select? o (a.frame f).view := by
  obtain ⟨invalid, hview, hentry⟩ := h.tidy.entry hf hactive
  have hview' : (a.frame f).view = .ofFrame (a.frame f).generation invalid := by
    rw [← h.frame_eq, hview]
  have hentry' : ((a.frame f).generation, invalid) ∈ a.ledger.table := by
    rwa [← h.frame_eq, ← h.ledger.table_eq]
  rw [select?_view h.tidy hview hentry, select?_view h.tidy' hview' hentry', ← hview, ← hview',
    h.inherited?_eq hf hactive]
  exact congrArg (Option.or · _) (h.find?_eq hf hactive o)

/-- The newest committed records are the same. -/
theorem selectCommitted?_eq (h : b.Thins a) (o : ObjectId) :
    b.selectCommitted? o = a.selectCommitted? o := by
  rw [h.tidy.selectCommitted?_eq, h.tidy'.selectCommitted?_eq, h.ledger.newest?_eq]

/-- The commit of an open frame has the same to merge. -/
theorem pendingMerges_eq (h : b.Thins a) (hf : f < b.frames.length)
    (hactive : (b.frame f).isActive = true) : b.pendingMerges f = a.pendingMerges f := by
  have hf' : f < a.frames.length := h.frames_eq ▸ hf
  have hactive' : (a.frame f).isActive = true := h.frame_eq f ▸ hactive
  rw [pendingMerges, pendingMerges, h.frame_eq]
  refine checkTouched_congr fun o _ => ?_
  have hfind : (b.ledger.chain o).find? (b.frame f).generation =
      (a.ledger.chain o).find? (a.frame f).generation := h.find?_eq hf hactive o
  rw [checkCommit_eq_found h.tidy' hf' hactive', ← h.frame_eq,
    checkCommit_eq_found h.tidy hf hactive, hfind, h.inherited?_eq hf hactive,
    h.ledger.newest?_eq, h.merge_eq, h.frame_eq]

/-! ## What stays so -/

/-- The same happens to both, but the thinner one may be trimmed. -/
theorem of_follows (h : b.Thins a) (hv : Follows v b effects)
    (hu : Follows u a (untrimmed effects)) (houtline : u.outline = v.outline.onRequest) :
    v.Thins u := by
  refine ⟨hv.tidy, hu.tidy, houtline, ?_⟩
  rw [hv.ledger_eq, hu.ledger_eq]
  exact h.ledger.run h.tidy'.sound h.tidy.sound hv.admits hu.admits

/-- A change to the frame that both make alike. -/
theorem modifyFrame (h : b.Thins a) (f : FrameId) {g : Frame → Frame}
    (hv : Follows (b.modifyFrame f g) b []) (hu : Follows (a.modifyFrame f g) a []) :
    (b.modifyFrame f g).Thins (a.modifyFrame f g) := by
  refine h.of_follows hv hu ?_
  rw [outline_modifyFrame, outline_modifyFrame, h.outline_eq]
  rfl

/-- Observers of both worlds may be told the same. -/
theorem tell (h : b.Thins a) (event : Event) : (b.tell event).Thins (a.tell event) :=
  h.of_follows (follows_tell h.tidy event) (follows_tell h.tidy' event) h.outline_eq

/-- An open frame may be discarded in both worlds. -/
theorem discardActive (h : b.Thins a) (hf : f < b.frames.length)
    (hactive : (b.frame f).isActive = true) : (b.discardActive f).Thins (a.discardActive f) := by
  have hf' : f < a.frames.length := h.frames_eq ▸ hf
  have hactive' : (a.frame f).isActive = true := h.frame_eq f ▸ hactive
  refine h.of_follows (follows_discardActive h.tidy hf hactive) ?_ ?_
  · rw [h.frame_eq]
    exact follows_discardActive h.tidy' hf' hactive'
  · rw [outline_discardActive, outline_discardActive, h.outline_eq]
    rfl

/-- Where chains are trimmed only on request, a commit does what it does elsewhere but for
trimming. -/
theorem commitEffects_eq (h : b.Thins a) (hf : f < b.frames.length)
    (hactive : (b.frame f).isActive = true) :
    a.commitEffects f = untrimmed (b.commitEffects f) := by
  rw [commitEffects, commitEffects, h.pendingMerges_eq hf hactive, h.frame_eq, h.gc_eq]
  cases a.pendingMerges f with
  | error e => rfl
  | ok merges =>
    dsimp only
    rw [untrimmed_cons_of_not_trims rfl]
    split
    · rw [untrimmed_map_trimmed]
    · rfl

/-- A commit has the same result in both worlds: what was trimmed neither conflicts nor is merged.
-/
theorem commitResult_eq (h : b.Thins a) (hf : f < b.frames.length)
    (hactive : (b.frame f).isActive = true) : b.commitResult f = a.commitResult f := by
  rw [commitResult, commitResult, h.pendingMerges_eq hf hactive, h.frame_eq, h.ledger.next_eq]
  cases a.pendingMerges f with
  | error e => simp only [h.typeName_eq]
  | ok merges => rfl

/-- A commit has the same result. -/
theorem commitActive (h : b.Thins a) (hf : f < b.frames.length)
    (hactive : (b.frame f).isActive = true) :
    (b.commitActive f).1 = (a.commitActive f).1 ∧
      (b.commitActive f).2.Thins (a.commitActive f).2 := by
  have hf' : f < a.frames.length := h.frames_eq ▸ hf
  have hactive' : (a.frame f).isActive = true := h.frame_eq f ▸ hactive
  obtain ⟨hresult, -, houtline⟩ := commitActive_spec h.tidy hf hactive
  obtain ⟨hresult', -, houtline'⟩ := commitActive_spec h.tidy' hf' hactive'
  refine ⟨?_, h.of_follows (follows_commitActive h.tidy hf hactive) ?_ ?_⟩
  · rw [hresult, hresult', h.commitResult_eq hf hactive]
  · rw [← h.commitEffects_eq hf hactive]
    exact follows_commitActive h.tidy' hf' hactive'
  · rw [houtline, houtline', stateAfterCommit, stateAfterCommit, h.pendingMerges_eq hf hactive,
      h.outline_eq]
    rfl

/-- A frame is committed with the same result, and the one world goes on to be the other one but for
what was trimmed. -/
theorem commit (h : b.Thins a) (hf : f < b.frames.length) :
    (b.commit f).1 = (a.commit f).1 ∧ (b.commit f).2.Thins (a.commit f).2 := by
  rw [World.commit, World.commit, h.frame_eq]
  dsimp only
  split
  · next hactive =>
    obtain ⟨hresult, hthins⟩ := h.commitActive hf (h.frame_eq f ▸ hactive)
    exact ⟨congrArg Except.ok hresult, hthins⟩
  · exact ⟨rfl, h⟩

/-- A frame, open or closed, may be discarded in both worlds. -/
theorem discard (h : b.Thins a) (hf : f < b.frames.length) :
    (b.discard f).Thins (a.discard f) := by
  rw [World.discard, World.discard, h.frame_eq]
  split
  · next hactive => exact h.discardActive hf (h.frame_eq f ▸ hactive)
  · exact h

/-- Both worlds may hold on to a frame. -/
theorem hold (h : b.Thins a) (f : FrameId) : (b.hold f).Thins (a.hold f) :=
  h.modifyFrame f (follows_hold h.tidy f) (follows_hold h.tidy' f)

/-- Both worlds may let go of a frame. -/
theorem release (h : b.Thins a) (hf : f < b.frames.length) :
    (b.release f).Thins (a.release f) := by
  have hletGo : (b.letGo f).Thins (a.letGo f) :=
    h.modifyFrame f (follows_letGo h.tidy f) (follows_letGo h.tidy' f)
  have hf' : f < (b.letGo f).frames.length := (length_frames_modifyFrame ..).symm ▸ hf
  rw [World.release, World.release, ← letGo, ← letGo, hletGo.frame_eq]
  split
  · exact hletGo.discard hf'
  · exact hletGo

/-- Any frame that was opened may become current in both worlds. -/
theorem setCurrent (h : b.Thins a) {current : Option FrameId}
    (hcurrent : ∀ f, current = some f → f < b.frames.length) :
    World.Thins { b with current := current } { a with current := current } where
  tidy := h.tidy.setCurrent hcurrent
  tidy' := h.tidy'.setCurrent (h.frames_eq ▸ hcurrent)
  outline_eq :=
    congrArg (fun outline : Outline α => { outline with current := current }) h.outline_eq
  ledger := h.ledger

/-! ## Opening frames and making objects -/

/-- A frame is opened with the same result in both worlds. -/
theorem openFrame (h : b.Thins a) (options : FrameOptions) :
    (b.openFrame 0 options).1 = (a.openFrame 0 options).1 ∧
      (b.openFrame 0 options).2.Thins (a.openFrame 0 options).2 := by
  have hfollows := follows_openFrame h.tidy options
  have hfollows' := follows_openFrame h.tidy' options
  rw [← h.maxOpenFrames_eq, ← h.ledger.table_eq] at hfollows'
  by_cases hfull : b.outline.config.maxOpenFrames ≤ b.ledger.table.length
  · have hfull' : a.outline.config.maxOpenFrames ≤ a.ledger.table.length := by
      rwa [← h.maxOpenFrames_eq, ← h.ledger.table_eq]
    rw [openFrame_full options hfull, openFrame_full options hfull', h.maxOpenFrames_eq]
    exact ⟨rfl, h⟩
  · have hfull' : ¬ a.outline.config.maxOpenFrames ≤ a.ledger.table.length := by
      rwa [← h.maxOpenFrames_eq, ← h.ledger.table_eq]
    rw [if_neg hfull] at hfollows hfollows'
    obtain ⟨hresult, -, houtline⟩ := openFrame_spec h.tidy.sole options hfull
    obtain ⟨hresult', -, houtline'⟩ := openFrame_spec h.tidy'.sole options hfull'
    refine ⟨?_, h.of_follows hfollows hfollows' ?_⟩
    · rw [hresult, hresult', h.frames_eq]
    · rw [houtline, houtline', h.outline_eq, nextFrame, nextFrame, h.ledger.next_eq,
        h.ledger.table_eq, h.frames_eq]
      rfl

/-- To make an object has the same effect on both ledgers. -/
theorem makingEffect_eq (h : b.Thins a) (initial : α) :
    b.makingEffect initial = a.makingEffect initial := by
  simp only [makingEffect, h.makingFrame?_eq, h.length_objects_eq, h.frame_eq]

/-- An object is made under the same number in both worlds. -/
theorem newObject (h : b.Thins a) (typeName : String) (merge : α → α → α → Option α)
    (initial : α) :
    (b.newObject 0 typeName merge initial).1 = (a.newObject 0 typeName merge initial).1 ∧
      (b.newObject 0 typeName merge initial).2.Thins (a.newObject 0 typeName merge initial).2 := by
  have huntrimmed : untrimmed [b.makingEffect initial] = [a.makingEffect initial] := by
    rw [h.makingEffect_eq, untrimmed_cons_of_not_trims]
    · rfl
    · rw [World.makingEffect]
      split <;> rfl
  refine ⟨?_, h.of_follows (follows_newObject h.tidy typeName merge initial) ?_ ?_⟩
  · rw [newObject_fst, newObject_fst, h.length_objects_eq]
  · rw [huntrimmed]
    exact follows_newObject h.tidy' typeName merge initial
  · rw [outline_newObject, outline_newObject, withBlank, withBlank, h.makingFrame?_eq,
      h.length_objects_eq]
    cases a.makingFrame? 0 with
    | none =>
      rw [outline_addObject, outline_addObject, h.outline_eq]
      rfl
    | some f =>
      rw [outline_touch, outline_touch, outline_addObject, outline_addObject, h.outline_eq]
      rfl

/-! ## Reading -/

/-- A frame reads the same in both worlds. -/
theorem readableIn (h : b.Thins a) (hf : f < b.frames.length) (o : ObjectId) :
    (b.running (readableIn f o)).1 = (a.running (readableIn f o)).1 ∧
      (b.running (readableIn f o)).2.Thins (a.running (readableIn f o)).2 := by
  rw [running, running, readableIn_run, readableIn_run, h.frame_eq, h.typeName_eq]
  cases hactive : (a.frame f).isActive with
  | false => exact ⟨rfl, h⟩
  | true =>
    have hselect := h.select?_eq hf (h.frame_eq f ▸ hactive) o
    rw [h.frame_eq] at hselect
    rw [if_pos rfl, if_pos rfl, hselect]
    cases a.select? o (a.frame f).view with
    | none => exact ⟨rfl, h⟩
    | some r =>
      cases (a.frame f).options.observed with
      | false => exact ⟨rfl, h⟩
      | true => exact ⟨rfl, h.tell _⟩

/-- An object is read the same in both worlds. -/
theorem readable (h : b.Thins a) (o : ObjectId) :
    (b.running (readable o)).1 = (a.running (readable o)).1 ∧
      (b.running (readable o)).2.Thins (a.running (readable o)).2 := by
  rw [running, running, readable_run, readable_run, h.owner_eq, h.currentFrameOf?_eq,
    h.selectCommitted?_eq, h.typeName_eq]
  cases hcurrent : a.currentFrameOf? (a.object o).manager with
  | some f =>
    refine h.readableIn (h.tidy.current f ?_) o
    rw [h.current_eq]
    exact (Option.filter_eq_some_iff.mp hcurrent).1
  | none =>
    cases a.selectCommitted? o with
    | none => exact ⟨rfl, h⟩
    | some r => exact ⟨rfl, h⟩

/-! ## Writing -/

/-- A write is noted in both worlds, where the policy is all that tells the outlines apart. -/
theorem outline_noteWrite_eq (h : b.Thins a) (f : FrameId) (o : ObjectId) :
    (a.noteWrite f o).outline = (b.noteWrite f o).outline.onRequest := by
  unfold noteWrite
  rw [h.frame_eq]
  split
  · exact h.outline_eq
  · rw [outline_touch, outline_touch, outline_modifyFrame, outline_modifyFrame, h.outline_eq]
    rfl

/-- A write finds or branches the same record. -/
theorem prepareWrite_eq (h : b.Thins a) (hf : f < b.frames.length) (o : ObjectId) :
    (b.prepareWrite f o).1 = (a.prepareWrite f o).1 ∧
      (a.prepareWrite f o).2.outline = (b.prepareWrite f o).2.outline.onRequest := by
  have hnoted := h.outline_noteWrite_eq f o
  unfold World.prepareWrite
  dsimp only
  rw [h.frame_eq, h.typeName_eq, h.owner_eq]
  cases hactive : (a.frame f).isActive with
  | false => exact ⟨rfl, h.outline_eq⟩
  | true =>
  have hactive' : (b.frame f).isActive = true := h.frame_eq f ▸ hactive
  have hfind := h.find?_eq hf hactive' o
  have hselect := h.select?_eq hf hactive' o
  rw [h.frame_eq] at hfind hselect
  simp only [hfind, hselect, Bool.not_true, Bool.false_eq_true, if_false]
  cases (a.frame f).options.readOnly with
  | true => exact ⟨rfl, h.outline_eq⟩
  | false =>
  cases (a.frame f).manager != (a.object o).manager with
  | true => exact ⟨rfl, h.outline_eq⟩
  | false =>
  cases (a.object o).chain.find? (a.frame f).generation with
  | some r => exact ⟨rfl, hnoted⟩
  | none =>
  cases a.select? o (a.frame f).view with
  | none => exact ⟨rfl, hnoted⟩
  | some base =>
    refine ⟨rfl, ?_⟩
    exact (outline_modifyChain ..).trans (hnoted.trans
      (congrArg Outline.onRequest (outline_modifyChain ..).symm))

/-- The record to write is found or branched in both worlds. -/
theorem prepareWrite (h : b.Thins a) (hf : f < b.frames.length) {o : ObjectId}
    (ho : o < b.objects.length) : (b.prepareWrite f o).2.Thins (a.prepareWrite f o).2 := by
  have hf' : f < a.frames.length := h.frames_eq ▸ hf
  have ho' : o < a.objects.length := h.length_objects_eq ▸ ho
  obtain ⟨hresult, houtline⟩ := h.prepareWrite_eq hf o
  cases hb : b.prepareWrite f o with
  | mk result v =>
  cases ha : a.prepareWrite f o with
  | mk result' u =>
  rw [hb, ha] at hresult houtline
  obtain rfl : result = result' := hresult
  cases result with
  | error violation =>
    exact h.of_follows (follows_prepareWrite_error h.tidy ho hb)
      (follows_prepareWrite_error h.tidy' ho' ha) houtline
  | ok r =>
    refine h.of_follows (follows_prepareWrite h.tidy hf ho hb) ?_ houtline
    have hactive := (of_prepareWrite hb).1
    have hlinked : untrimmed (b.linkEffects f o r) = a.linkEffects f o r := by
      rw [linkEffects, linkEffects, h.find?_eq hf hactive]
      split <;> rfl
    rw [hlinked]
    exact follows_prepareWrite h.tidy' hf' ho' ha

/-- The observer is told of a write in both worlds. -/
theorem tellWrite (h : b.Thins a) (f : FrameId) (o : ObjectId) :
    (b.tellWrite f o).Thins (a.tellWrite f o) := by
  refine h.of_follows (follows_tellWrite h.tidy f o) (follows_tellWrite h.tidy' f o) ?_
  rw [World.tellWrite, World.tellWrite, outline_modifyFrame, outline_modifyFrame, outline_tell,
    outline_tell, h.outline_eq]
  rfl

/-- The observer does the same in both worlds. -/
theorem afterObserver (h : b.Thins a) (hf : f < b.frames.length)
    (hactive : (b.frame f).isActive = true) (o : ObjectId) :
    (b.afterObserver f o).Thins (a.afterObserver f o) := by
  have htold := h.tellWrite f o
  have hf' : f < (b.tellWrite f o).frames.length := by
    rwa [World.tellWrite, length_frames_modifyFrame]
  have hactive' : ((b.tellWrite f o).frame f).isActive = true := by
    rw [frame_tellWrite hf]
    exact hactive
  rw [World.afterObserver, World.afterObserver, h.frame_eq]
  split
  · split
    · exact htold
    · exact (htold.commitActive hf' hactive').2
    · exact htold.discardActive hf' hactive'
  · exact h

/-- A value is stored in both worlds. -/
theorem store (h : b.Thins a) {o : ObjectId} (ho : o < b.objects.length) (g : Generation)
    (change : α → α) : (b.store o g change).Thins (a.store o g change) := by
  refine h.of_follows (follows_store h.tidy ho g change)
    (follows_store h.tidy' (h.length_objects_eq ▸ ho) g change) ?_
  exact (outline_modifyChain ..).trans (h.outline_eq.trans
    (congrArg Outline.onRequest (outline_modifyChain ..).symm))

/-- A write is to the same record. -/
theorem writing (h : b.Thins a) (hf : f < b.frames.length) {o : ObjectId}
    (ho : o < b.objects.length) (change : α → α) :
    (b.writing (writableIn f o) o change).1 = (a.writing (writableIn f o) o change).1 ∧
      (b.writing (writableIn f o) o change).2.Thins (a.writing (writableIn f o) o change).2 := by
  have hprepared := h.prepareWrite hf ho
  obtain ⟨hresult, -⟩ := h.prepareWrite_eq hf o
  rw [World.writing, World.writing, writableIn_run, writableIn_run, h.frame_eq]
  cases hb : b.prepareWrite f o with
  | mk result v =>
  cases ha : a.prepareWrite f o with
  | mk result' u =>
  rw [hb, ha] at hresult hprepared
  obtain rfl : result = result' := hresult
  cases result with
  | error violation => exact ⟨rfl, hprepared⟩
  | ok r =>
    dsimp only at hprepared ⊢
    have hf' : f < v.frames.length := (length_frames_prepareWrite hb).symm ▸ hf
    have ho' : o < v.objects.length := (length_objects_prepareWrite hb).symm ▸ ho
    have hactive : (v.frame f).isActive = true :=
      (frame_prepareWrite Frame.isActive (fun _ _ => rfl) (fun _ _ => rfl) hb f).trans
        (of_prepareWrite hb).1
    refine ⟨rfl, ?_⟩
    split
    · exact hprepared.store ho' r.generation change
    · have hlength := length_objects_afterObserver hprepared.tidy hf' hactive o
      exact (hprepared.afterObserver hf' hactive o).store (hlength.symm ▸ ho') r.generation change

end Thins

end World

end VersionedObjects.Store
