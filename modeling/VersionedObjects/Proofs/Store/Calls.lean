import VersionedObjects.Proofs.Store.Writing
import VersionedObjects.Store.Scope

/-!
# Calls and runs

A call is anything a program asks of one manager, its frames and its objects, and a run is any list
of calls, one after the other. A call that names a frame or an object which does not exist is not
answered. Main statement: a call takes a tidy world to a tidy world, and what it does to the ledger
is a list of effects that the ledger admits.
-/

namespace VersionedObjects.Store

variable {α : Type}

/-- What a program may ask of the store. -/
inductive Call (α : Type) where
  | openFrame (options : FrameOptions)
  | commit (f : FrameId)
  | discard (f : FrameId)
  /-- One more holds on to a frame. -/
  | hold (f : FrameId)
  /-- Somebody drops a frame. -/
  | drop (f : FrameId)
  /-- Something starts to run inside a frame. -/
  | enter (f : FrameId)
  /-- What runs inside the current frame ends; the frame stays current unless it was entered
  first. -/
  | leave (first : Bool)
  | construct (typeName : String) (merge : α → α → α → Option α) (initial : α)
  | announce (o : ObjectId)
  /-- A read in the current frame or outside of frames. -/
  | read (o : ObjectId)
  | readIn (f : FrameId) (o : ObjectId)
  | hasVisibleRecord (o : ObjectId)
  /-- A write in the current frame. -/
  | write (o : ObjectId) (change : α → α)
  | writeIn (f : FrameId) (o : ObjectId) (change : α → α)
  | collect (o : ObjectId)

/-- What a program is answered. -/
inductive Answer (α : Type) where
  | opened (result : Except Refusal FrameId)
  | committed (result : Except Violation (Except Refusal CommitEvent))
  | entered (result : Except Violation Unit)
  | made (o : ObjectId)
  /-- The record that was read or is written, as it was before the write. -/
  | record (result : Except Violation (Record α))
  | visible (found : Bool)
  | collected (dropped : Nat)
  | done
  | unknown

namespace World

variable {w : World α}

/-- A frame with the number was opened. -/
def hasFrame (w : World α) (f : FrameId) : Bool :=
  f < w.frames.length

/-- An object with the number was made. -/
def hasObject (w : World α) (o : ObjectId) : Bool :=
  o < w.objects.length

/-- What the call names exists. -/
def knows (w : World α) : Call α → Bool
  | .openFrame _ | .construct .. => true
  | .commit f | .discard f | .hold f | .drop f | .enter f => w.hasFrame f
  | .leave _ => w.current.isSome
  | .announce o | .read o | .hasVisibleRecord o | .write o _ | .collect o => w.hasObject o
  | .readIn f o | .writeIn f o _ => w.hasFrame f && w.hasObject o

/-- An operation on the world with its result. -/
def running {β : Type} (w : World α) (x : StoreM α β) : Except Violation β × World α :=
  match x.run w with
  | .ok b v => (.ok b, v)
  | .error violation v => (.error violation, v)

/-- Starts to run something inside a frame. -/
def enterFrame (w : World α) (f : FrameId) : Except Violation Unit × World α :=
  match w.current.filter (· != f) with
  | some g => (.error (.otherFrameCurrent (w.frame f).generation (w.frame g).generation), w)
  | none => (.ok (), { w.hold f with current := some f })

/-- Ends what runs inside a frame. -/
def leaveFrame (w : World α) (f : FrameId) (first : Bool) : World α :=
  { w with current := if first then none else some f }.release f

/-- Finds the record to write and stores the changed value into it. -/
def writing (w : World α) (x : StoreM α (Record α)) (o : ObjectId) (change : α → α) :
    Except Violation (Record α) × World α :=
  match x.run w with
  | .ok r v => (.ok r, v.store o r.generation change)
  | .error violation v => (.error violation, v)

/-- The answer to a call that names only what exists, and the world after it. -/
def act (w : World α) : Call α → Answer α × World α
  | .openFrame options => let (result, v) := w.openFrame 0 options; (.opened result, v)
  | .commit f => let (result, v) := w.commit f; (.committed result, v)
  | .discard f => (.done, w.discard f)
  | .hold f => (.done, w.hold f)
  | .drop f => (.done, w.release f)
  | .enter f => let (result, v) := w.enterFrame f; (.entered result, v)
  | .leave first => (.done, w.leaveFrame (w.current.getD 0) first)
  | .construct typeName merge initial =>
    let (o, v) := w.newObject 0 typeName merge initial; (.made o, v)
  | .announce o => (.done, w.notifyCreated o)
  | .read o => let (result, v) := w.running (readable o); (.record result, v)
  | .readIn f o => let (result, v) := w.running (readableIn f o); (.record result, v)
  | .hasVisibleRecord o => (.visible (w.hasVisibleRecord o), w)
  | .write o change =>
    let (result, v) := w.writing (writable o) o change; (.record result, v)
  | .writeIn f o change =>
    let (result, v) := w.writing (writableIn f o) o change; (.record result, v)
  | .collect o => let (dropped, v) := w.collect 0 o; (.collected dropped, v)

/-- The answer to a call and the world after it. -/
def perform (w : World α) (call : Call α) : Answer α × World α :=
  if w.knows call then w.act call else (.unknown, w)

/-- The world after a call. -/
def step (w : World α) (call : Call α) : World α :=
  (w.perform call).2

/-- The world after calls in order. -/
def after (w : World α) (calls : List (Call α)) : World α :=
  calls.foldl step w

/-- The world of one manager in which nothing has happened. -/
def start (α : Type) (config : Config) : World α :=
  ({} : World α).addManager config

/-- A run is its first call and then the others. -/
@[simp] theorem after_cons (w : World α) (call : Call α) (rest : List (Call α)) :
    w.after (call :: rest) = (w.step call).after rest :=
  rfl

/-- Two runs in a row are one run. -/
theorem after_append (w : World α) (calls more : List (Call α)) :
    w.after (calls ++ more) = (w.after calls).after more :=
  List.foldl_append ..

/-- To run something inside a frame is to enter the frame, to run it, and to leave the frame. -/
theorem enter_run {β : Type} (w : World α) (f : FrameId) (body : StoreM α β) :
    (enter α f body : StoreM α β).run w =
      match w.enterFrame f with
      | (.error violation, v) => .error violation v
      | (.ok (), v) =>
        match body.run v with
        | .ok b u => .ok b (u.leaveFrame f w.current.isNone)
        | .error violation u => .error violation (u.leaveFrame f w.current.isNone) := by
  have hbody (v : World α) (outer : Option FrameId) :
      (tryFinally body (change fun u : World α =>
        { u with current := outer }.release f) : StoreM α β).run v =
        match body.run v with
        | .ok b u => .ok b ({ u with current := outer }.release f)
        | .error violation u => .error violation ({ u with current := outer }.release f) := by
    simp only [tryFinally, tryFinally', EStateM.run, Functor.map, EStateM.map]
    cases body v <;> rfl
  have hget : (getThe (World α) : StoreM α (World α)).run w = .ok w w := rfl
  unfold enterFrame leaveFrame enter
  rw [EStateM.run_bind, hget]
  cases hcurrent : w.current with
  | none =>
    simp only [hcurrent]
    exact hbody _ none
  | some g =>
    simp only [hcurrent]
    by_cases hg : g = f
    · subst hg
      simp only [ne_eq, not_true_eq_false, if_false, Option.filter, bne_self_eq_false,
        Bool.false_eq_true]
      exact hbody _ (some g)
    · simp only [ne_eq, hg, not_false_eq_true, if_true, Option.filter, bne_iff_ne]
      rfl

/-! ## Reading -/

/-- What a read in a frame comes to: a record that the frame sees, or a violation. -/
theorem readableIn_run (w : World α) (f : FrameId) (o : ObjectId) :
    (readableIn f o).run w =
      if (w.frame f).isActive then
        match w.select? o (w.frame f).view with
        | none => .error (.invisible (w.object o).typeName o (w.frame f).generation) w
        | some r => .ok r (if (w.frame f).options.observed then w.tell (.read o) else w)
      else .error (.closedFrame "read" (w.frame f).generation (w.frame f).state) w := by
  rw [readableIn, EStateM.run_bind, EStateM.run_get]
  dsimp only
  cases (w.frame f).isActive with
  | false => rfl
  | true =>
    simp only [Bool.not_true, Bool.false_eq_true, if_false, if_true]
    cases w.select? o (w.frame f).view with
    | none => rfl
    | some r => cases hobserved : (w.frame f).options.observed <;> simp [-bind_pure_comp]

/-- What a read comes to: one in the current frame of the object's manager, or the newest committed
record. -/
theorem readable_run (w : World α) (o : ObjectId) :
    (readable o).run w =
      match w.currentFrameOf? (w.object o).manager with
      | some f => (readableIn f o).run w
      | none =>
        match w.selectCommitted? o with
        | some r => .ok r w
        | none => .error (.uncommitted (w.object o).typeName o) w := by
  rw [readable, EStateM.run_bind, EStateM.run_get]
  dsimp only
  cases w.currentFrameOf? (w.object o).manager with
  | some f => rfl
  | none => cases w.selectCommitted? o <;> rfl

/-- What finding the record to write comes to: a write in the current frame, or a violation where
none is. -/
theorem writable_run (w : World α) (o : ObjectId) :
    (writable o).run w =
      match w.current with
      | some f => (writableIn f o).run w
      | none => .error (.noFrame (w.object o).typeName o) w := by
  rw [writable, EStateM.run_bind, EStateM.run_get]
  dsimp only
  cases w.current <;> rfl

/-- Inside a frame the question for a visible record is about what the frame selects. -/
theorem hasVisibleRecord_of_current (hw : w.Tidy) {f : FrameId} (hcurrent : w.current = some f)
    (o : ObjectId) : w.hasVisibleRecord o = (w.select? o (w.frame f).view).isSome := by
  have hown : w.currentFrameOf? (w.object o).manager = some f := by
    rw [hw.owner, currentFrameOf?, hcurrent, Option.filter_some,
      if_pos (beq_iff_eq.mpr (hw.fits f (hw.current f hcurrent)).manager_eq)]
  rw [hasVisibleRecord, hown]

/-! ## Effects of calls -/

/-- What a write of a frame to an object does to the ledger. -/
def writeEffects (w : World α) (f : FrameId) (o : ObjectId) (change : α → α) :
    List (Effect α) :=
  match w.prepareWrite f o with
  | (.error _, _) => []
  | (.ok r, v) =>
    w.linkEffects f o r ++
      ((if (w.frame f).written.contains o then [] else v.observerEffects f o) ++
        [.stored o r.generation change])

/-- What a call that names only what exists does to the ledger. -/
def actEffects (w : World α) : Call α → List (Effect α)
  | .openFrame _ =>
    if w.outline.config.maxOpenFrames ≤ w.ledger.table.length then [] else [.opened]
  | .commit f => if (w.frame f).isActive then w.commitEffects f else []
  | .discard f => w.discardEffects f
  | .drop f => w.releaseEffects f
  | .leave _ => w.releaseEffects (w.current.getD 0)
  | .construct _ _ initial => [w.makingEffect initial]
  | .write o change =>
    match w.current with
    | some f => w.writeEffects f o change
    | none => []
  | .writeIn f o change => w.writeEffects f o change
  | .collect o => [.trimmed o]
  | .hold _ | .enter _ | .announce _ | .read _ | .readIn _ _ | .hasVisibleRecord _ => []

/-- What a call does to the ledger. -/
def effects (w : World α) (call : Call α) : List (Effect α) :=
  if w.knows call then w.actEffects call else []

/-- A frame is known if it was opened. -/
theorem hasFrame_iff {f : FrameId} : w.hasFrame f = true ↔ f < w.frames.length :=
  decide_eq_true_iff

/-- An object is known if it was made. -/
theorem hasObject_iff {o : ObjectId} : w.hasObject o = true ↔ o < w.objects.length :=
  decide_eq_true_iff

/-- A read leaves the world alone, but for what the observer of a frame is told. -/
theorem follows_readableIn (hw : w.Tidy) (f : FrameId) (o : ObjectId) :
    Follows (w.running (readableIn f o)).2 w [] := by
  rw [running, readableIn_run]
  split
  · next hrun =>
    split at hrun
    · split at hrun
      · cases hrun
      · cases hrun
        split
        · exact follows_tell hw _
        · exact .refl hw
    · cases hrun
  · next hrun =>
    split at hrun
    · split at hrun
      · cases hrun
        exact .refl hw
      · cases hrun
    · cases hrun
      exact .refl hw

/-- To read an object has no effect on the ledger. -/
theorem follows_readable (hw : w.Tidy) (o : ObjectId) :
    Follows (w.running (readable o)).2 w [] := by
  rw [running, readable_run]
  cases w.currentFrameOf? (w.object o).manager with
  | some f => exact follows_readableIn hw f o
  | none =>
    cases w.selectCommitted? o with
    | none => exact .refl hw
    | some r => exact .refl hw

/-- A write takes effect in its three parts. -/
theorem follows_writing (hw : w.Tidy) {f : FrameId} (hf : f < w.frames.length) {o : ObjectId}
    (ho : o < w.objects.length) (change : α → α) :
    Follows (w.writing (writableIn f o) o change).2 w (w.writeEffects f o change) := by
  rw [writing, writeEffects, writableIn_run]
  cases hprepare : w.prepareWrite f o with
  | mk result v =>
  cases result with
  | error violation => exact follows_prepareWrite_error hw ho hprepare
  | ok r =>
    dsimp only
    have hlinked := follows_prepareWrite hw hf ho hprepare
    have hv := hlinked.tidy
    have hf' : f < v.frames.length := (length_frames_prepareWrite hprepare).symm ▸ hf
    have ho' : o < v.objects.length := (length_objects_prepareWrite hprepare).symm ▸ ho
    have hactive : (v.frame f).isActive = true :=
      (frame_prepareWrite Frame.isActive (fun _ _ => rfl) (fun _ _ => rfl) hprepare f).trans
        (of_prepareWrite hprepare).1
    split
    · exact hlinked.trans (follows_store hv ho' r.generation change)
    · have hobserved := follows_afterObserver hv hf' hactive o
      have hlength := length_objects_afterObserver hv hf' hactive o
      exact hlinked.trans
        (hobserved.trans (follows_store hobserved.tidy (hlength.symm ▸ ho') r.generation change))

/-- To commit a frame has its effects on the ledger if the frame is open, and none otherwise. -/
theorem follows_commit (hw : w.Tidy) {f : FrameId} (hf : f < w.frames.length) :
    Follows (w.commit f).2 w (if (w.frame f).isActive then w.commitEffects f else []) := by
  rw [World.commit]
  dsimp only
  split
  · next hactive => exact follows_commitActive hw hf hactive
  · exact .refl hw

/-- To enter a frame has no effect on the ledger. -/
theorem follows_enterFrame (hw : w.Tidy) {f : FrameId} (hf : f < w.frames.length) :
    Follows (w.enterFrame f).2 w [] := by
  rw [enterFrame]
  split
  · exact .refl hw
  · have hheld := follows_hold hw f
    refine .of_eq (hheld.tidy.setCurrent fun g hg => ?_) rfl (hheld.keeps.trans (.of_eq rfl rfl))
    rw [hold, length_frames_modifyFrame]
    exact Option.some.inj hg ▸ hf

/-- To leave a frame discards it on the ledger where nobody else holds on to it. -/
theorem follows_leaveFrame (hw : w.Tidy) {f : FrameId} (hf : f < w.frames.length)
    (first : Bool) : Follows (w.leaveFrame f first) w (w.releaseEffects f) := by
  have hleft : Follows { w with current := if first then none else some f } w [] := by
    refine .of_eq (hw.setCurrent fun g hg => ?_) rfl (.of_eq rfl rfl)
    split at hg
    · cases hg
    · exact Option.some.inj hg ▸ hf
  exact hleft.trans (follows_release hleft.tidy hf)

/-- An announcement is not in the outline. -/
theorem outline_notifyCreated (w : World α) (o : ObjectId) :
    (w.notifyCreated o).outline = w.outline := by
  rw [notifyCreated]
  dsimp only
  split
  · rfl
  · rw [outline_tell, outline_count]
    exact w.outline_modifyObject o fun _ => rfl

/-- An announcement is not on the ledger. -/
theorem ledger_notifyCreated (w : World α) (o : ObjectId) :
    (w.notifyCreated o).ledger = w.ledger := by
  rw [notifyCreated]
  dsimp only
  split
  · rfl
  · rw [ledger_tell, ledger_count]
    exact w.ledger_modifyObject o fun _ => rfl

/-- Announcing an object tells the observers, and nothing else. -/
theorem follows_notifyCreated (hw : w.Tidy) (o : ObjectId) :
    Follows (w.notifyCreated o) w [] :=
  .of_same hw (outline_notifyCreated w o) (ledger_notifyCreated w o)

/-- What is trimmed is not in the outline. -/
theorem outline_collect (w : World α) (m : ManagerId) (o : ObjectId) :
    (w.collect m o).2.outline = w.outline := by
  rw [collect]
  dsimp only [trimObject]
  rw [outline_count, outline_modifyChain]

/-- To trim an object on request trims it on the ledger. -/
theorem follows_collect (hw : w.Tidy) {o : ObjectId} (ho : o < w.objects.length) :
    Follows (w.collect 0 o).2 w [.trimmed o] := by
  refine .of_effect hw (outline_collect w 0 o) ?_ (.trimmed o) rfl rfl
  rw [collect]
  dsimp only [trimObject]
  rw [ledger_count, ledger_modifyChain ho]
  rfl

/-- A write in the current frame is a write in that frame. -/
theorem writing_writable {f : FrameId} (h : w.current = some f) (o : ObjectId)
    (change : α → α) : w.writing (writable o) o change = w.writing (writableIn f o) o change := by
  rw [writing, writing, writable_run, h]

/-- Nothing is written outside of frames. -/
theorem writing_writable_none (h : w.current = none) (o : ObjectId) (change : α → α) :
    w.writing (writable o) o change = (.error (.noFrame (w.object o).typeName o), w) := by
  rw [writing, writable_run, h]

/-- A call takes a tidy world to a tidy world by its effects. -/
theorem follows_step (hw : w.Tidy) (call : Call α) :
    Follows (w.step call) w (w.effects call) := by
  rw [step, perform, effects]
  split
  · next hknown =>
    cases call with
    | openFrame options => exact follows_openFrame hw options
    | commit f => exact follows_commit hw (hasFrame_iff.mp hknown)
    | discard f => exact follows_discard hw (hasFrame_iff.mp hknown)
    | hold f => exact follows_hold hw f
    | drop f => exact follows_release hw (hasFrame_iff.mp hknown)
    | enter f => exact follows_enterFrame hw (hasFrame_iff.mp hknown)
    | leave first =>
      obtain ⟨f, hf⟩ := Option.isSome_iff_exists.mp hknown
      dsimp only [act, actEffects]
      rw [hf]
      exact follows_leaveFrame hw (hw.current f hf) first
    | construct typeName merge initial => exact follows_newObject hw typeName merge initial
    | announce o => exact follows_notifyCreated hw o
    | read o => exact follows_readable hw o
    | readIn f o => exact follows_readableIn hw f o
    | hasVisibleRecord o => exact .refl hw
    | write o change =>
      dsimp only [act, actEffects]
      cases hcurrent : w.current with
      | none =>
        rw [writing_writable_none hcurrent]
        exact .refl hw
      | some f =>
        rw [writing_writable hcurrent]
        exact follows_writing hw (hw.current f hcurrent) (hasObject_iff.mp hknown) change
    | writeIn f o change =>
      obtain ⟨hf, ho⟩ := Bool.and_eq_true_iff.mp hknown
      exact follows_writing hw (hasFrame_iff.mp hf) (hasObject_iff.mp ho) change
    | collect o => exact follows_collect hw (hasObject_iff.mp hknown)
  · exact .refl hw

/-! ## Runs -/

/-- A world in which nothing has happened is tidy. -/
theorem tidy_start (α : Type) (config : Config) : (start α config).Tidy := by
  have hchain (o : ObjectId) : ((start α config).ledger.chain o).records = [] :=
    chain_eq_nil (Nat.zero_le o)
  exact ⟨rfl, ⟨.nil 1, fun o => .of_empty (hchain o)⟩, fun _ => rfl, nofun, nofun, nofun⟩

/-- Every call leaves a tidy world tidy. -/
theorem Tidy.step (hw : w.Tidy) (call : Call α) : (w.step call).Tidy :=
  (follows_step hw call).tidy

/-- Every world that a run leads to is tidy. -/
theorem Tidy.after (hw : w.Tidy) (calls : List (Call α)) : (w.after calls).Tidy := by
  induction calls generalizing w with
  | nil => exact hw
  | cons call rest ih => exact ih (hw.step call)

/-- A run keeps the settings, and every frame with its view. -/
theorem Tidy.keeps_after (hw : w.Tidy) (calls : List (Call α)) :
    (w.after calls).outline.Keeps w.outline := by
  induction calls generalizing w with
  | nil => exact .refl _
  | cons call rest ih => exact (follows_step hw call).keeps.trans (ih (hw.step call))

end World

end VersionedObjects.Store
