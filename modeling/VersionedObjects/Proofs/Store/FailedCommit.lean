import VersionedObjects.Proofs.Store.LinearHistory
import Mathlib.Data.List.Perm.Basic

/-!
# Failed commits

A commit checks the objects that its frame touched one after the other and gives up at the first
conflict, when it may have found other values to merge. It has changed nothing by then, so a commit
that fails leaves what discarding the frame leaves, in whatever order the objects are checked, and
so does dropping the last hold on an open frame.
-/

namespace VersionedObjects.Store

variable {α : Type}

namespace World

variable {w : World α} {f : FrameId}

/-! ## The order of changes -/

/-- Two changes of one frame are one change. -/
theorem modifyFrame_modifyFrame (w : World α) (f : FrameId) (g k : Frame → Frame) :
    (w.modifyFrame f g).modifyFrame f k = w.modifyFrame f fun frame => k (g frame) := by
  simp only [modifyFrame, List.modify_modify_eq]
  rfl

/-- The same change to two chains may be made in either order. -/
theorem modifyChain_comm (w : World α) (o p : ObjectId) (f : Chain α → Chain α) :
    (w.modifyChain o f).modifyChain p f = (w.modifyChain p f).modifyChain o f := by
  by_cases hp : o = p
  · rw [hp]
  · simp only [modifyChain, modifyObject, List.modify_modify_ne _ _ _ hp]

/-- In which order the same change is made to several chains does not matter. -/
theorem modifyChains_perm {objects order : List ObjectId} (h : order.Perm objects)
    (w : World α) (f : Chain α → Chain α) : w.modifyChains order f = w.modifyChains objects f := by
  have : RightCommutative fun (w : World α) (o : ObjectId) => w.modifyChain o f :=
    ⟨fun w o p => w.modifyChain_comm o p f⟩
  exact h.foldl_eq w

/-- Changes of chains and of frames commute. -/
theorem modifyChains_modifyFrame (w : World α) (f : FrameId) (g : Frame → Frame)
    (objects : List ObjectId) (k : Chain α → Chain α) :
    (w.modifyFrame f g).modifyChains objects k = (w.modifyChains objects k).modifyFrame f g := by
  induction objects generalizing w with
  | nil => rfl
  | cons o rest ih => exact ih (w.modifyChain o k)

/-- Changing chains notifies nobody. -/
theorem log_modifyChains (w : World α) (objects : List ObjectId) (f : Chain α → Chain α) :
    (w.modifyChains objects f).log = w.log := by
  induction objects generalizing w with
  | nil => rfl
  | cons o rest ih => exact ih (w.modifyChain o f)

/-- A frame may be changed before or after it is discarded, if the change concerns neither its
records nor its state. -/
theorem discardActive_modifyFrame (hf : f < w.frames.length) {g : Frame → Frame}
    (hmanager : (g (w.frame f)).manager = (w.frame f).manager)
    (hview : (g (w.frame f)).view = (w.frame f).view)
    (hlisted : (g (w.frame f)).listed.Perm (w.frame f).listed)
    (hstate : ∀ frame : Frame, g { frame with state := .discarded } =
      { g frame with state := .discarded }) :
    (w.modifyFrame f g).discardActive f = (w.discardActive f).modifyFrame f g := by
  have hframe : (w.modifyFrame f g).frame f = g (w.frame f) := by
    rw [frame_modifyFrame hf, if_pos rfl]
  have hgen : (g (w.frame f)).generation = (w.frame f).generation :=
    congrArg Visibility.generation hview
  have hclosing (v : World α) (m : ManagerId) (close : Manager → Manager)
      (c : Counters → Counters) :
      (((v.modifyFrame f g).modifyManager m close).modifyFrame f fun frame =>
          { frame with state := .discarded }).count m c =
        (((v.modifyManager m close).modifyFrame f fun frame =>
          { frame with state := .discarded }).count m c).modifyFrame f g := by
    have hcomm : ((v.modifyManager m close).modifyFrame f g).modifyFrame f (fun frame =>
        { frame with state := .discarded }) =
        ((v.modifyManager m close).modifyFrame f fun frame =>
          { frame with state := .discarded }).modifyFrame f g := by
      rw [modifyFrame_modifyFrame, modifyFrame_modifyFrame]
      exact congrArg _ (funext fun frame => (hstate frame).symm)
    exact congrArg (count · m c) hcomm
  rw [discardActive, hframe, hgen, hmanager, ← modifyChains, modifyChains_perm hlisted,
    modifyChains_modifyFrame, hclosing, discardActive, ← modifyChains]

/-! ## Checking in another order -/

/-- The world in which the frame lists the objects that it touched in another order. -/
def reorder (w : World α) (f : FrameId) (order : List ObjectId) : World α :=
  w.modifyFrame f fun frame => { frame with options := { frame.options with listing := order } }

/-- A check fails exactly when one of the objects conflicts. -/
theorem checkTouched_error_iff (w : World α) (view : Visibility) (isOpen : Generation → Bool)
    (objects : List ObjectId) :
    (∃ e, w.checkTouched view isOpen objects = .error e) ↔
      ∃ o ∈ objects, ∃ committed,
        (w.object o).checkCommit view isOpen = .conflict committed := by
  constructor
  · rintro ⟨⟨o, committed⟩, herror⟩
    obtain ⟨hmem, hcheck⟩ := of_checkTouched_error herror
    exact ⟨o, hmem, committed, hcheck⟩
  · rintro ⟨o, hmem, committed, hcheck⟩
    cases hresult : w.checkTouched view isOpen objects with
    | error e => exact ⟨e, rfl⟩
    | ok merges =>
      obtain ⟨-, hclash, -⟩ := of_checkTouched_ok hresult
      exact absurd hcheck (hclash o hmem committed)

/-- The world after the commit of a frame has failed. -/
def failCommit (w : World α) (f : FrameId) : World α :=
  (w.discard f).count 0 fun c => { c with conflicts := c.conflicts + 1 }

/-- Reordering gives the frame another listing and leaves the rest of it as it is. -/
theorem frame_reorder (hf : f < w.frames.length) (order : List ObjectId) :
    (w.reorder f order).frame f =
      { w.frame f with options := { (w.frame f).options with listing := order } } := by
  rw [reorder, frame_modifyFrame hf, if_pos rfl]

/-- A frame lists its objects in the order that it is given. -/
theorem listed_reorder (hf : f < w.frames.length) {order : List ObjectId}
    (hperm : order.Perm (w.frame f).touched) : ((w.reorder f order).frame f).listed = order := by
  rw [frame_reorder hf]
  exact arrange_of_perm hperm

/-- In which order a frame lists its objects does not matter when its commit fails. -/
theorem failCommit_reorder (hf : f < w.frames.length) (hactive : (w.frame f).isActive = true)
    (order : List ObjectId) :
    (w.reorder f order).failCommit f = (w.failCommit f).reorder f order := by
  have hopen : ((w.reorder f order).frame f).isActive = true := by
    rw [frame_reorder hf]
    exact hactive
  have hperm : Frame.listed { w.frame f with
      options := { (w.frame f).options with listing := order } } |>.Perm (w.frame f).listed :=
    (Frame.listed_perm _).trans (w.frame f).listed_perm.symm
  have hcomm : (w.reorder f order).discardActive f = (w.discardActive f).reorder f order :=
    discardActive_modifyFrame hf rfl rfl hperm fun _ => rfl
  rw [failCommit, discard, if_pos hopen, hcomm, failCommit, discard, if_pos hactive]
  rfl

/-- A commit fails if and only if one of the touched objects conflicts, and then it has discarded
the frame. -/
theorem commit_refused (hmanager : (w.frame f).manager = 0)
    (hactive : (w.frame f).isActive = true) :
    ((∃ refusal, (w.commit f).1 = .ok (.error refusal)) ↔
      ∃ o ∈ (w.frame f).touched, ∃ committed,
        (w.object o).checkCommit (w.frame f).view (w.manager 0).isOpen = .conflict committed) ∧
    ∀ refusal, (w.commit f).1 = .ok (.error refusal) → (w.commit f).2 = w.failCommit f := by
  have hdiscard : w.failCommit f =
      (w.discardActive f).count 0 fun c => { c with conflicts := c.conflicts + 1 } := by
    rw [failCommit, discard, if_pos hactive]
  have hcommit : w.commit f = (.ok (w.commitActive f).1, (w.commitActive f).2) :=
    if_pos hactive
  have hiff := w.checkTouched_error_iff (w.frame f).view (w.manager 0).isOpen (w.frame f).listed
  simp only [Frame.mem_listed] at hiff
  rw [hcommit, ← hiff, hdiscard]
  unfold commitActive
  simp only [hmanager]
  cases hresult : w.checkTouched (w.frame f).view (w.manager 0).isOpen (w.frame f).listed with
  | error e => exact ⟨iff_of_true ⟨_, rfl⟩ ⟨e, rfl⟩, fun refusal _ => rfl⟩
  | ok merges =>
    refine ⟨iff_of_false ?_ ?_, fun refusal hrefused => ?_⟩
    · rintro ⟨refusal, hrefused⟩
      cases Except.ok.inj hrefused
    · rintro ⟨e, herror⟩
      cases herror
    · cases Except.ok.inj hrefused

/-- The same whatever the order in which the frame lists its objects. -/
theorem commit_reorder (hf : f < w.frames.length) (hmanager : (w.frame f).manager = 0)
    (hactive : (w.frame f).isActive = true) (order : List ObjectId) :
    ((∃ refusal, ((w.reorder f order).commit f).1 = .ok (.error refusal)) ↔
      ∃ o ∈ (w.frame f).touched, ∃ committed,
        (w.object o).checkCommit (w.frame f).view (w.manager 0).isOpen = .conflict committed) ∧
    ∀ refusal, ((w.reorder f order).commit f).1 = .ok (.error refusal) →
      ((w.reorder f order).commit f).2 = (w.failCommit f).reorder f order := by
  have hframe := frame_reorder hf order
  have hrefused := commit_refused (w := w.reorder f order) (f := f)
    (by rw [hframe]; exact hmanager) (by rw [hframe]; exact hactive)
  rw [hframe, failCommit_reorder hf hactive] at hrefused
  exact hrefused

/-! ## What discarding leaves -/

/-- Discarding a frame takes its records out of every chain; the clock and what observers were told
stay as they are. -/
theorem failCommit_spec (hw : w.Tidy) (hf : f < w.frames.length)
    (hactive : (w.frame f).isActive = true) :
    ((w.failCommit f).manager 0).next = (w.manager 0).next ∧ (w.failCommit f).log = w.log ∧
      ∀ o, ((w.failCommit f).object o).chain =
        (w.object o).chain.discard (w.frame f).generation := by
  have hledger : (w.failCommit f).ledger = w.ledger.apply (.discarded (w.frame f).generation) := by
    rw [failCommit, discard, if_pos hactive, ledger_count, ledger_discardActive hw hf hactive]
  refine ⟨congrArg Ledger.next hledger, ?_, fun o => congrFun (congrArg Ledger.chain hledger) o⟩
  rw [failCommit, discard, if_pos hactive]
  exact w.log_modifyChains (w.frame f).listed (·.discard (w.frame f).generation)

/-- Who drops the last hold on an open frame discards it. -/
theorem release_of_last (hf : f < w.frames.length) (hactive : (w.frame f).isActive = true)
    (hlast : (w.frame f).holders = 1) : w.release f = (w.discard f).letGo f := by
  have hframe : (w.letGo f).frame f = { w.frame f with holders := 0 } := by
    rw [letGo, frame_modifyFrame hf, if_pos rfl, hlast]
  have hopen : ((w.letGo f).frame f).isActive = true := by
    rw [hframe]
    exact hactive
  have hcomm : (w.letGo f).discardActive f = (w.discardActive f).letGo f :=
    discardActive_modifyFrame hf rfl rfl (List.Perm.refl _) fun _ => rfl
  rw [release, ← letGo, if_pos (by rw [hframe]), discard, if_pos hopen, hcomm, discard,
    if_pos hactive]

/-- **A failed commit is a discard.** Whenever the commit of an open frame is attempted, by a call
or by the observer in the middle of a write, and in whatever order the objects that the frame
touched are checked, it fails if and only if one of them conflicts. It then leaves the world that
discarding the frame leaves, but for one more conflict that is counted: no generation is taken from
the clock, no observer is told of a commit, and in every chain the record of the frame is discarded.
Dropping the last hold on an open frame discards it as well, and a closed frame is discarded without
effect. -/
theorem failed_commit (config : Config) (calls : List (Call α)) :
    let w := (start α config).after calls
    (∀ call u f, (u, f) ∈ w.commitsIn call →
      (∀ order, order.Perm (u.frame f).touched →
        ((u.reorder f order).frame f).listed = order ∧
        ((∃ refusal, ((u.reorder f order).commit f).1 = .ok (.error refusal)) ↔
          ∃ o ∈ (u.frame f).touched, ∃ committed,
            (u.object o).checkCommit (u.frame f).view (u.manager 0).isOpen =
              .conflict committed)) ∧
      ∀ refusal, (u.commit f).1 = .ok (.error refusal) →
        (u.commit f).2 = u.failCommit f ∧
        (∀ order, order.Perm (u.frame f).touched →
          ((u.reorder f order).commit f).2 = (u.failCommit f).reorder f order) ∧
        ((u.failCommit f).manager 0).next = (u.manager 0).next ∧ (u.failCommit f).log = u.log ∧
        ∀ o, ((u.failCommit f).object o).chain =
          (u.object o).chain.discard (u.frame f).generation) ∧
    (∀ f < w.frames.length, (w.frame f).isActive = true → (w.frame f).holders = 1 →
      w.step (.drop f) = (w.discard f).letGo f) ∧
    ∀ f < w.frames.length, (w.frame f).isActive = false → w.step (.discard f) = w := by
  have hw := (tidy_start α config).after calls
  dsimp only
  generalize (start α config).after calls = w at hw
  refine ⟨fun call u f hmem => ?_, fun f hf hactive hlast => ?_, fun f hf hclosed => ?_⟩
  · obtain ⟨-, hf, hactive, before, after, -, hfollows, -⟩ := attempts_of_mem_commitsIn hw hmem
    have hu := hfollows.tidy
    have hmanager := (hu.fits f hf).manager_eq
    obtain ⟨hiff, hsame⟩ := commit_refused hmanager hactive
    refine ⟨fun order hperm =>
        ⟨listed_reorder hf hperm, (commit_reorder hf hmanager hactive order).1⟩,
      fun refusal hrefused =>
        ⟨hsame refusal hrefused, fun order _ => ?_, failCommit_spec hu hf hactive⟩⟩
    obtain ⟨hiff', hsame'⟩ := commit_reorder hf hmanager hactive order
    obtain ⟨other, hother⟩ := hiff'.mpr (hiff.mp ⟨refusal, hrefused⟩)
    exact hsame' other hother
  · have hknown : w.knows (.drop f) = true := hasFrame_iff.mpr hf
    rw [step, perform, if_pos hknown]
    exact release_of_last hf hactive hlast
  · have hknown : w.knows (.discard f) = true := hasFrame_iff.mpr hf
    rw [step, perform, if_pos hknown]
    dsimp only [act, discard]
    rw [if_neg (by rw [hclosed]; exact Bool.false_ne_true)]

/-- Two frames write a counter, whose changes add up, and a flag, whose values cannot be merged, and
the first frame commits. -/
def flagLost : List (Call Nat) :=
  [.construct "Counter" addChanges 5, .construct "Flag" (fun _ _ _ => none) 0, .openFrame {},
    .openFrame {}, .writeIn 0 0 (· + 1), .writeIn 0 1 (· + 1), .writeIn 1 0 (· + 2),
    .writeIn 1 1 (· + 2), .commit 0]

/-- The second frame fails to commit although its counter could be merged, whether it checks the
counter or the flag first; dropping it instead would have discarded it as well. -/
theorem failed_commit_of_flag :
    let w := (start Nat { gc := .manual }).after flagLost
    (w.commit 1).1 = .ok (.error (.conflict 1 "Flag" 4 3)) ∧
      (w.commit 1).2 = w.failCommit 1 ∧
      ((w.reorder 1 [1, 0]).commit 1).2 = (w.failCommit 1).reorder 1 [1, 0] ∧
      w.step (.drop 1) = (w.discard 1).letGo 1 ∧ w.step (.discard 0) = w := by
  intro w
  have hrefused : (w.commit 1).1 = .ok (.error (.conflict 1 "Flag" 4 3)) := rfl
  obtain ⟨hfailed, hdropped, hclosed⟩ := failed_commit { gc := .manual } flagLost
  obtain ⟨-, hdiscarded⟩ := hfailed (.commit 1) w 1 (List.mem_singleton_self _)
  obtain ⟨hsame, horder, -⟩ := hdiscarded _ hrefused
  exact ⟨hrefused, hsame, horder [1, 0] (by decide), hdropped 1 (by decide) (by decide) (by decide),
    hclosed 0 (by decide) (by decide)⟩

end World

end VersionedObjects.Store
