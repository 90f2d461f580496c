import VersionedObjects.Proofs.Store.Writing

/-!
# The steps of closing a frame

A frame is closed in a few steps, whether it is discarded or committed: chains are changed, its
generation is taken off the table of open ones, its state changes, things are counted, and a commit
is told. What holds between the worlds before and after each of these steps, and goes on to hold
from one step to the next, holds between the worlds before and after the frame is closed. Main
statements: `ThroughClosing.discardActive` and `ThroughClosing.commitActive`.
-/

namespace VersionedObjects.Store.World

variable {α : Type} {R : World α → World α → Prop}

/-- A relation of later worlds to earlier ones that goes through the steps in which frames are
closed, but for what is merged. -/
structure ThroughClosing (R : World α → World α → Prop) : Prop where
  refl : ∀ w, R w w
  trans : ∀ {u v w}, R v w → R u v → R u w
  count : ∀ w m change, R (w.count m change) w
  closeAll : ∀ w m generations, R (w.modifyManager m (·.closeAll generations)) w
  close : ∀ w f state, state ≠ .active → R (w.modifyFrame f fun frame => { frame with state }) w
  discardRecord : ∀ w o g, R (w.modifyChain o (·.discard g)) w
  trimRecords : ∀ w o view, R (w.modifyChain o (·.trim view)) w
  tell : ∀ w m event, R (w.tell (.committed m event)) w

namespace ThroughClosing

/-- What goes in such steps for one object goes so for all in a row. -/
theorem foldl (h : ThroughClosing R) {change : World α → ObjectId → World α}
    (hchange : ∀ v o, R (change v o) v) (w : World α) (objects : List ObjectId) :
    R (objects.foldl change w) w := by
  induction objects generalizing w with
  | nil => exact h.refl w
  | cons o rest ih => exact h.trans (hchange w o) (ih (change w o))

/-- To discard an open frame goes in such steps. -/
theorem discardActive (h : ThroughClosing R) (w : World α) (f : FrameId) :
    R (w.discardActive f) w := by
  rw [World.discardActive]
  refine h.trans (h.trans (h.trans ?_ (h.closeAll ..)) (h.close _ f .discarded ?_)) (h.count ..)
  · exact h.foldl (fun v o => h.discardRecord v o (w.frame f).generation) w (w.frame f).listed
  · decide

/-- To discard a frame goes in such steps. -/
theorem discard (h : ThroughClosing R) (w : World α) (f : FrameId) :
    R (w.discard f) w := by
  rw [World.discard]
  split
  · exact h.discardActive w f
  · exact h.refl w

/-- By induction on the values to merge. -/
theorem publishMerges (h : ThroughClosing R)
    (hmerge : ∀ w m g merge, R (World.publishMerge w m g merge).2 w) (w : World α) (m : ManagerId)
    (g : Generation) (merges : List (PendingMerge α)) : R (w.publishMerges m g merges).2 w := by
  induction merges generalizing w with
  | nil => exact h.refl w
  | cons merge rest ih => exact h.trans (hmerge w m g merge) (ih (w.publishMerge m g merge).2)

/-- To trim the chains of objects goes in such steps. -/
theorem trimAll (h : ThroughClosing R) (w : World α) (m : ManagerId) (view : GcView)
    (objects : List ObjectId) : R (w.trimAll m view objects) w :=
  h.foldl (fun v o => h.trans (h.trimRecords v o view) (h.count ..)) w objects

/-- To commit a frame goes in such steps, if publishing its merged values does. -/
theorem commitActive (h : ThroughClosing R) (w : World α) (f : FrameId)
    (hpublish : ∀ merges, w.checkTouched (w.frame f).view
        (w.manager (w.frame f).manager).isOpen (w.frame f).listed = .ok merges →
      R (w.publishMerges (w.frame f).manager (w.frame f).generation merges).2 w) :
    R (w.commitActive f).2 w := by
  unfold World.commitActive
  dsimp only
  split
  · exact h.trans (h.discardActive w f)
      (h.count _ _ fun c => { c with conflicts := c.conflicts + 1 })
  · next merges hcheck =>
    have hclosed := h.trans (h.trans (hpublish merges hcheck) (h.closeAll _ (w.frame f).manager
      ((w.frame f).generation ::
        (w.publishMerges (w.frame f).manager (w.frame f).generation merges).1)))
      (h.close _ f .committed (by decide))
    have hcounted := h.trans hclosed (h.count _ (w.frame f).manager fun c =>
      { c with committed := c.committed + 1, merged := c.merged + merges.length })
    split
    · exact h.trans (h.trans hcounted (h.trimAll ..)) (h.tell ..)
    · exact h.trans hcounted (h.tell ..)

/-- What the observer of a first write does, if the relation goes through its being told. -/
theorem afterObserver (h : ThroughClosing R) (w : World α) (f : FrameId) (o : ObjectId)
    (htold : R (w.tellWrite f o) w) (hcommit : ∀ v, R (World.commitActive v f).2 v) :
    R (w.afterObserver f o) w := by
  rw [World.afterObserver]
  split
  · split
    · exact htold
    · exact h.trans htold (hcommit _)
    · exact h.trans htold (h.discardActive _ f)
  · exact h.refl w

end ThroughClosing

end VersionedObjects.Store.World
