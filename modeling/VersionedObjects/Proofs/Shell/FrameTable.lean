import VersionedObjects.Proofs.Dynamic.AccessorSafety
import VersionedObjects.Shell.Session

/-!
# The open frames of a session

A session holds every frame of its table, so the frame stays open until the session closes it, and
what runs inside it leaves it as it was.
-/

namespace VersionedObjects

namespace Store.World

variable {α : Type} {u v w : World α} {g : Generation} {f : FrameId}

/-- An open frame of a generation that was opened without options, and that somebody holds. -/
structure Held (w : World α) (g : Generation) (f : FrameId) : Prop where
  lt_length : f < w.frames.length
  active : (w.frame f).isActive = true
  plain : (w.frame f).options = {}
  generation : (w.frame f).generation = g
  holders : 0 < (w.frame f).holders

/-- The open frames are what they were, but for what they touched and wrote, and none is current. -/
structure Rests (v w : World α) : Prop where
  tidy : v.Tidy
  current : v.current = none
  length : v.frames.length = w.frames.length
  frame : ∀ k, (v.frame k).bare = (w.frame k).bare
  table : v.ledger.table = w.ledger.table

/-- A tidy world rests outside of frames. -/
theorem Rests.refl (hw : w.Tidy) (hout : w.current = none) : w.Rests w :=
  ⟨hw, hout, rfl, fun _ => rfl, rfl⟩

/-- What rests twice rests. -/
theorem Rests.trans (h : v.Rests w) (h' : u.Rests v) : u.Rests w where
  tidy := h'.tidy
  current := h'.current
  length := h'.length.trans h.length
  frame k := (h'.frame k).trans (h.frame k)
  table := h'.table.trans h.table

/-- What goes on outside of frames leaves the open ones what they were. -/
theorem Continues.rests (h : v.Continues w) (hw : w.current = none) : v.Rests w :=
  ⟨h.tidy, h.current.trans hw, h.length, h.frame, h.table⟩

/-- A frame that is held stays so where the open frames are what they were. -/
theorem Held.of_rests (h : w.Held g f) (hv : v.Rests w) : v.Held g f := by
  have hbare := hv.frame f
  have hstate : (v.frame f).state = (w.frame f).state := congrArg (·.state) hbare
  have hoptions : (v.frame f).options = (w.frame f).options := congrArg (·.options) hbare
  have hview : (v.frame f).view = (w.frame f).view := congrArg (·.view) hbare
  have hholders : (v.frame f).holders = (w.frame f).holders := congrArg (·.holders) hbare
  refine ⟨hv.length ▸ h.lt_length, ?_, hoptions.trans h.plain, ?_, hholders ▸ h.holders⟩
  · rw [Frame.isActive, hstate]
    exact h.active
  · rw [Frame.generation, hview]
    exact h.generation

/-! ## Running inside a frame -/

/-- The world in which a frame has become current. -/
def stepIn (w : World α) (f : FrameId) : World α :=
  { w.hold f with current := some f }

/-- To step into a frame adds a holder of it, and changes no other. -/
theorem frame_stepIn (hf : f < w.frames.length) (k : FrameId) : (w.stepIn f).frame k =
    if k = f then { w.frame f with holders := (w.frame f).holders + 1 } else w.frame k :=
  (frame_modifyFrame hf _ k).trans (by split <;> simp_all)

/-- Inside a frame that is held one can work. -/
theorem Held.atWork (h : w.Held g f) (hw : w.Tidy) : (w.stepIn f).AtWork := by
  have hframe := frame_stepIn h.lt_length f
  rw [if_pos rfl] at hframe
  refine ⟨?_, fun k hk => ?_, fun k hk => ?_⟩
  · refine (follows_hold hw f).tidy.setCurrent fun k hk => ?_
    cases hk
    rw [hold, length_frames_modifyFrame]
    exact h.lt_length
  · cases hk
    rw [hframe]
    exact h.active
  · cases hk
    rw [hframe]
    exact h.plain

/-- What runs inside a held frame leaves the frames as they were. -/
theorem Held.rests (h : w.Held g f) (hv : v.Continues (w.stepIn f)) :
    (v.leaveFrame f true).Rests w := by
  let out : World α := { v with current := none }
  have hlength : v.frames.length = w.frames.length :=
    hv.length.trans (length_frames_modifyFrame ..)
  have hout : out.Tidy := hv.tidy.setCurrent fun _ hk => by cases hk
  have hbare (k : FrameId) : (v.frame k).bare = _ :=
    (hv.frame k).trans (congrArg Frame.bare (frame_stepIn h.lt_length k))
  have hframe (k : FrameId) : (out.letGo f).frame k = _ :=
    frame_modifyFrame (w := out) (hlength ▸ h.lt_length) _ k
  -- one holder is left, so the frame is not discarded
  have hholders : ((out.letGo f).frame f).holders ≠ 0 := by
    have hheld := congrArg Frame.holders (hbare f)
    rw [if_pos rfl] at hheld
    rw [hframe, if_pos rfl]
    change (v.frame f).holders - 1 ≠ 0
    change (v.frame f).holders = (w.frame f).holders + 1 at hheld
    rw [hheld]
    exact Nat.pos_iff_ne_zero.mp h.holders
  have hleave : v.leaveFrame f true = out.letGo f := by
    rw [leaveFrame, release, ← letGo]
    exact if_neg hholders
  rw [hleave]
  refine ⟨(follows_letGo hout f).tidy, rfl, ?_, fun k => ?_, ?_⟩
  · rw [letGo, length_frames_modifyFrame]
    exact hlength
  · rw [hframe]
    by_cases hk : k = f
    · have hsame := congrArg (fun frame : Frame => { frame with holders := frame.holders - 1 })
        (hbare k)
      rw [if_pos hk] at hsame ⊢
      rw [hk] at hsame ⊢
      exact hsame
    · have hsame := hbare k
      rw [if_neg hk] at hsame ⊢
      exact hsame
  · rw [letGo, ledger_modifyFrame]
    exact hv.table

/-! ## Opening and closing frames -/

/-- To open a frame without options is refused and changes nothing, or it adds a frame of the next
generation, which is held. -/
theorem openFrame_cases (hw : w.Tidy) :
    (∃ refusal, w.openFrame 0 {} = (.error refusal, w)) ∨
      ∃ v, w.openFrame 0 {} = (.ok w.frames.length, v) ∧ v.Tidy ∧ v.current = w.current ∧
        v.ledger.table.generations = w.ledger.table.generations ++ [w.ledger.next] ∧
        v.Held w.ledger.next w.frames.length ∧ ∀ g f, w.Held g f → v.Held g f := by
  have htidy := hw.openFrame {}
  by_cases hfull : w.outline.config.maxOpenFrames ≤ w.ledger.table.length
  · exact .inl ⟨_, openFrame_full {} hfull⟩
  obtain ⟨hok, hledger, houtline⟩ := openFrame_spec hw.sole {} hfull
  refine .inr ⟨(w.openFrame 0 {}).2, Prod.ext hok rfl, htidy, ?_⟩
  generalize (w.openFrame 0 {}).2 = v at hledger houtline ⊢
  have hframes : v.frames = w.frames ++ [w.nextFrame {}] := congrArg Outline.frames houtline
  have hnew : v.frame w.frames.length = w.nextFrame {} := by simp [frame, hframes]
  refine ⟨congrArg Outline.current houtline, ?_, ?_, fun g f hf => ?_⟩
  · rw [hledger]
    simp [Ledger.apply, OpenTable.generations]
  · refine ⟨by simp [hframes], ?_, ?_, ?_, ?_⟩
    all_goals rw [hnew]
    exacts [rfl, rfl, rfl, Nat.one_pos]
  · have hsame : v.frame f = w.frame f := by
      simp [frame, hframes, List.getElem?_append_left hf.lt_length]
    refine ⟨?_, ?_, ?_, ?_, ?_⟩
    · rw [hframes, List.length_append]
      exact Nat.lt_add_right _ hf.lt_length
    all_goals rw [hsame]
    exacts [hf.active, hf.plain, hf.generation, hf.holders]

/-- An open frame was closed, and of the frames no other has changed. -/
structure Closes (v w : World α) (f : FrameId) : Prop where
  tidy : v.Tidy
  current : v.current = w.current
  length : v.frames.length = w.frames.length
  others : ∀ k, k ≠ f → v.frame k = w.frame k
  closed : (v.frame f).isActive = false
  table : v.ledger.table = w.ledger.table.without (w.frame f).generation

/-- A frame whose state and whose entry are all that changed was closed. -/
theorem closes_of_outline (hf : f < w.frames.length) {effects : List (Effect α)}
    (h : Follows v w effects) {state : FrameState} (hstate : state ≠ .active)
    (houtline : v.outline = w.outline.modifyFrame f fun frame => { frame with state := state })
    (htable : (w.ledger.run effects).table = w.ledger.table.without (w.frame f).generation) :
    v.Closes w f := by
  have hframes : v.frames =
      (w.modifyFrame f fun frame => { frame with state := state }).frames :=
    congrArg Outline.frames houtline
  have hframe (k : FrameId) : v.frame k =
      (w.modifyFrame f fun frame => { frame with state := state }).frame k := by
    rw [frame, hframes, ← frame]
  refine ⟨h.tidy, congrArg Outline.current houtline, ?_, fun k hk => ?_, ?_,
    h.ledger_eq ▸ htable⟩
  · rw [hframes, length_frames_modifyFrame]
  · rw [hframe, frame_modifyFrame hf, if_neg hk]
  · rw [hframe, frame_modifyFrame hf, if_pos rfl]
    exact beq_false_of_ne hstate

/-- To discard an open frame closes it. -/
theorem closes_discard (hw : w.Tidy) (hf : f < w.frames.length)
    (hactive : (w.frame f).isActive = true) : (w.discard f).Closes w f := by
  rw [discard, if_pos hactive]
  exact closes_of_outline hf (follows_discardActive hw hf hactive)
    (show FrameState.discarded ≠ .active by decide)
    (outline_discardActive w f) rfl

/-- A commit closes the generation of the frame, whether or not there is a conflict. -/
theorem table_run_commitEffects (w : World α) (f : FrameId) :
    (w.ledger.run (w.commitEffects f)).table =
      w.ledger.table.without (w.frame f).generation := by
  have htrimmed (objects : List ObjectId) (l : Ledger α) :
      (l.run (objects.map .trimmed)).table = l.table := by
    induction objects generalizing l with
    | nil => rfl
    | cons o rest ih => exact ih (l.apply (.trimmed o))
  unfold commitEffects
  split
  · rfl
  · rw [Ledger.run_cons]
    split
    · rw [htrimmed]
      rfl
    · rfl

/-- To commit an open frame closes it, whether or not it loses. -/
theorem closes_commit (hw : w.Tidy) (hf : f < w.frames.length)
    (hactive : (w.frame f).isActive = true) :
    ∃ v, w.commit f = (.ok (w.commitResult f), v) ∧ v.Closes w f := by
  obtain ⟨hresult, -, houtline⟩ := commitActive_spec hw hf hactive
  have hstate : w.stateAfterCommit f ≠ .active := by
    unfold stateAfterCommit
    split <;> nofun
  refine ⟨(w.commitActive f).2, ?_, closes_of_outline hf (follows_commitActive hw hf hactive)
    hstate houtline (table_run_commitEffects w f)⟩
  rw [commit, if_pos hactive, ← hresult]

/-- Letting go of a closed frame closes nothing else. -/
theorem Closes.release (h : v.Closes w f) (hf : f < w.frames.length) :
    (v.release f).Closes w f := by
  have hframe (k : FrameId) : (v.letGo f).frame k = _ :=
    frame_modifyFrame (h.length ▸ hf) _ k
  have hclosed : ((v.letGo f).frame f).isActive = false := by
    rw [hframe, if_pos rfl]
    exact h.closed
  have hrelease : v.release f = v.letGo f := by
    rw [World.release, ← letGo, discard, hclosed]
    exact ite_self _
  rw [hrelease]
  refine ⟨(follows_letGo h.tidy f).tidy, h.current, ?_, fun k hk => ?_, hclosed, ?_⟩
  · rw [letGo, length_frames_modifyFrame, h.length]
  · rw [hframe, if_neg hk, h.others k hk]
  · rw [letGo, ledger_modifyFrame, h.table]

/-- A held frame is still held when another one was closed. -/
theorem Held.of_closes (h : w.Held g f) {k : FrameId} (hv : v.Closes w k) (hk : f ≠ k) :
    v.Held g f := by
  refine ⟨hv.length ▸ h.lt_length, ?_, ?_, ?_, ?_⟩
  all_goals rw [hv.others f hk]
  exacts [h.active, h.plain, h.generation, h.holders]

/-- Trimming chains touches no frame. -/
theorem rests_collect (hw : w.Tidy) (hout : w.current = none) (o : ObjectId) :
    (w.collect 0 o).2.Rests w := by
  have houtline := outline_collect w 0 o
  have hframes : (w.collect 0 o).2.frames = w.frames := congrArg Outline.frames houtline
  have hkept : (w.collect 0 o).2.Tidy ∧
      (w.collect 0 o).2.ledger.table = w.ledger.table := by
    by_cases ho : o < w.objects.length
    · have hfollows := follows_collect hw ho
      exact ⟨hfollows.tidy, (congrArg Ledger.table hfollows.ledger_eq).trans rfl⟩
    · have hledger : (w.collect 0 o).2.ledger = w.ledger := by
        rw [collect]
        dsimp only [trimObject]
        rw [ledger_count, modifyChain, modifyObject, List.modify_eq_self (Nat.le_of_not_lt ho)]
      exact ⟨hw.of_eq houtline hledger, congrArg Ledger.table hledger⟩
  refine ⟨hkept.1, (congrArg Outline.current houtline).trans hout, ?_, fun k => ?_, hkept.2⟩
  · rw [hframes]
  · rw [frame, hframes, ← frame]

end Store.World

namespace Dynamic

/-- To run something inside a frame is to enter the frame, to run it, and to leave the frame. -/
theorem enter_apply {β : Type} (f : Store.FrameId) (body : EvalM β) {r : Runtime}
    (h : r.world.current = none) :
    (Store.enter Slots f body : EvalM β) r =
      match body { r with world := r.world.stepIn f } with
      | .ok b later => .ok b { later with world := later.world.leaveFrame f true }
      | .error e later => .error e { later with world := later.world.leaveFrame f true } := by
  have hget : (getThe (Store.World Slots) : EvalM (Store.World Slots)) r = .ok r.world r := rfl
  unfold Store.enter
  rw [bind_of_ok hget, h]
  have hbody (s : Runtime) :
      (tryFinally body (Store.change fun u : Store.World Slots =>
        { u with current := none }.release f) : EvalM β) s =
        match body s with
        | .ok b u => .ok b { u with world := u.world.leaveFrame f true }
        | .error e u => .error e { u with world := u.world.leaveFrame f true } := by
    simp only [tryFinally, tryFinally', Functor.map, EStateM.map]
    cases body s <;> rfl
  exact hbody _

end Dynamic

end VersionedObjects
