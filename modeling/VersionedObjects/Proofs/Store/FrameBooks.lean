import VersionedObjects.Proofs.Store.Balance

/-!
# Frames on the books

Opening and closing frames, from the side of the books. A frame that is opened takes the next
generation and stamps itself with those that are open; a frame that is closed leaves the open table
together with the generations of its merged values. Main statement: a frame is refused exactly when
its manager has as many open ones as may be, and both opening and closing leave the books balanced.
-/

namespace VersionedObjects.Store

variable {α : Type}

namespace World

variable {v w : World α} {m : ManagerId} {minted : List Generation} {pending : Nat}
  {stamps : List (ManagerId × Visibility)}

/-! ## Closing -/

/-- The world after the generation of a frame, and those minted for its merged values, left the open
table, and the frame was closed and counted. -/
def shut (w : World α) (f : FrameId) (minted : List Generation) (state : FrameState)
    (change : Counters → Counters) : World α :=
  let v := w.modifyManager (w.frame f).manager (·.closeAll ((w.frame f).generation :: minted))
  (v.modifyFrame f fun frame => { frame with state := state }).count (w.frame f).manager change

section shut

variable {f : FrameId} {state : FrameState} {change : Counters → Counters}

/-- The frame that is shut is in its new state, and the others stay what they were. -/
theorem frame_shut (hf : f < w.frames.length) (h : FrameId) :
    (w.shut f minted state change).frame h =
      if h = f then { w.frame h with state := state } else w.frame h :=
  frame_modifyFrame (w := w.modifyManager _ _) hf _ h

/-- To shut a frame opens none. -/
theorem length_frames_shut : (w.shut f minted state change).frames.length = w.frames.length :=
  length_frames_modifyFrame ..

/-- A closed frame is not among the open ones any more. -/
theorem openFrames_shut (hf : f < w.frames.length) (hstate : state ≠ .active) (k : ManagerId) :
    (w.shut f minted state change).openFrames k = (w.openFrames k).filter (· != f) := by
  rw [openFrames, openFrames, length_frames_shut, List.filter_filter]
  refine List.filter_congr fun h _ => ?_
  rw [frame_shut hf]
  by_cases hh : h = f
  · simp [hh, Frame.isActive, hstate]
  · simp [hh]

/-- The frames of the other managers stay as they were. -/
theorem openFrames_shut_of_ne (hf : f < w.frames.length) (hstate : state ≠ .active)
    {k : ManagerId} (hk : k ≠ (w.frame f).manager) :
    (w.shut f minted state change).openFrames k = w.openFrames k := by
  rw [openFrames_shut hf hstate, List.filter_eq_self]
  rintro h hh
  simp only [bne_iff_ne]
  rintro rfl
  exact hk (mem_openFrames.mp hh).2.1.symm

/-- There is one open frame less when one is shut. -/
theorem length_openFrames_shut (hf : f < w.frames.length) (hactive : (w.frame f).isActive = true)
    (hstate : state ≠ .active) :
    ((w.shut f minted state change).openFrames (w.frame f).manager).length + 1 =
      (w.openFrames (w.frame f).manager).length := by
  have hmem : f ∈ w.openFrames (w.frame f).manager := mem_openFrames.mpr ⟨hf, rfl, hactive⟩
  rw [openFrames_shut hf hstate, ← (nodup_openFrames w _).erase_eq_filter,
    List.length_erase_of_mem hmem, Nat.sub_add_cancel (List.length_pos_of_mem hmem)]

/-- To shut a frame adds no manager. -/
theorem length_managers_shut :
    (w.shut f minted state change).managers.length = w.managers.length := by
  rw [shut, count, length_managers_modifyManager]
  exact length_managers_modifyManager ..

/-- The manager of a frame that is shut closes its generations and counts. -/
theorem manager_shut (hm : (w.frame f).manager < w.managers.length) :
    (w.shut f minted state change).manager (w.frame f).manager =
      { (w.manager (w.frame f).manager).closeAll ((w.frame f).generation :: minted) with
        counters := change (w.manager (w.frame f).manager).counters } := by
  have hm' : (w.frame f).manager < ((w.modifyManager (w.frame f).manager
      (·.closeAll ((w.frame f).generation :: minted))).modifyFrame f
        fun frame => { frame with state := state }).managers.length :=
    (length_managers_modifyManager ..).symm ▸ hm
  rw [shut, count, manager_modifyManager_of_lt hm']
  have hclosed := manager_modifyManager_of_lt hm (·.closeAll ((w.frame f).generation :: minted))
  exact congrArg (fun manager : Manager =>
    { manager with counters := change manager.counters }) hclosed

/-- Other managers stay what they were. -/
theorem manager_shut_of_ne {k : ManagerId} (hk : k ≠ (w.frame f).manager) :
    (w.shut f minted state change).manager k = w.manager k :=
  (manager_modifyManager_of_ne hk _ _).trans (manager_modifyManager_of_ne hk w _)

/-- What of a manager neither its open table nor its counters tell. -/
theorem manager_shut_eq {β : Type} (p : Manager → β)
    (htable : ∀ manager gs, p (manager.closeAll gs) = p manager)
    (hcounters : ∀ (manager : Manager) counters, p { manager with counters } = p manager)
    (k : ManagerId) : p ((w.shut f minted state change).manager k) = p (w.manager k) :=
  (manager_modifyManager_of_eq p (fun manager => hcounters manager _) _ _ k).trans
    (manager_modifyManager_of_eq p (fun manager => htable manager _) w _ k)

/-- A frame that is closed takes its entry, and the minted generations, out of the open table. -/
theorem closeAll_openTable (hw : w.BalancedBut stamps (w.frame f).manager minted 0)
    (hf : f < w.frames.length) :
    ((w.manager (w.frame f).manager).closeAll ((w.frame f).generation :: minted)).openTable =
      ((w.openFrames (w.frame f).manager).filter (· != f)).map
        fun h => ((w.frame h).generation, (w.frame h).view.invalid) := by
  have hminted : (minted.map fun g => (g, ([] : List Generation))).filter
      (fun entry => !((w.frame f).generation :: minted).contains entry.1) = [] := by
    rw [List.filter_eq_nil_iff]
    rintro entry hentry
    obtain ⟨g, hg, rfl⟩ := List.mem_map.mp hentry
    simp [hg]
  change (w.manager (w.frame f).manager).openTable.filter _ = _
  rw [hw.table_eq, if_pos rfl, List.filter_append, hminted, List.append_nil, List.filter_map]
  congr 1
  refine List.filter_congr fun h hh => ?_
  obtain ⟨hlt, hmanager, -⟩ := mem_openFrames.mp hh
  have hgen : (w.frame h).generation = (w.frame f).generation ↔ h = f :=
    ⟨hw.eq_of_generation_eq hlt hf hmanager, fun heq => heq ▸ rfl⟩
  have hfresh := hw.fresh h hlt hmanager
  rw [Bool.eq_iff_iff]
  simp [hfresh, hgen]

/-- A closed frame leaves the books balanced, but for what its merged values are still to be
reported. -/
theorem BalancedBut.shut (hw : w.BalancedBut stamps (w.frame f).manager minted 0)
    (hf : f < w.frames.length) (hactive : (w.frame f).isActive = true)
    (hstate : state ≠ .active)
    (hchange : ∀ c, (change c).opened = c.opened ∧
      (change c).committed + (change c).discarded = c.committed + c.discarded + 1 ∧
      (change c).merged = c.merged + pending) :
    (w.shut f minted state change).BalancedBut stamps (w.frame f).manager [] pending := by
  have hself : (w.shut f minted state change).manager (w.frame f).manager = _ :=
    manager_shut (hw.known f hf)
  have hother {k : ManagerId} (hk : k ≠ (w.frame f).manager) :
      (w.shut f minted state change).manager k = w.manager k := manager_shut_of_ne hk
  have hopen (k : ManagerId) : (w.shut f minted state change).openFrames k =
      (w.openFrames k).filter (· != f) := openFrames_shut hf hstate k
  have hsame {k : ManagerId} (hk : k ≠ (w.frame f).manager) :
      (w.shut f minted state change).openFrames k = w.openFrames k :=
    openFrames_shut_of_ne hf hstate hk
  have hfewer : ((w.shut f minted state change).openFrames (w.frame f).manager).length + 1 = _ :=
    length_openFrames_shut hf hactive hstate
  have hframe (h : FrameId) : ((w.shut f minted state change).frame h).stamp = (w.frame h).stamp ∧
      ((w.shut f minted state change).frame h).touched = (w.frame h).touched ∧
      ((w.shut f minted state change).frame h).written = (w.frame h).written := by
    rw [frame_shut hf]
    split <;> exact ⟨rfl, rfl, rfl⟩
  have hlength : (w.shut f minted state change).frames.length = w.frames.length :=
    length_frames_shut
  have hobject (o : ObjectId) : (w.shut f minted state change).object o = w.object o := rfl
  have hreported (k : ManagerId) :
      (w.shut f minted state change).reportedMerges k = w.reportedMerges k := rfl
  have hmanagers : (w.shut f minted state change).managers.length = w.managers.length :=
    length_managers_shut
  have hnext (k : ManagerId) : ((w.shut f minted state change).manager k).next =
      (w.manager k).next := manager_shut_eq Manager.next (fun _ _ => rfl) (fun _ _ => rfl) k
  have hconfig (k : ManagerId) : ((w.shut f minted state change).manager k).config =
      (w.manager k).config := manager_shut_eq Manager.config (fun _ _ => rfl) (fun _ _ => rfl) k
  generalize w.shut f minted state change = v at *
  have hmanager (h : FrameId) : (v.frame h).manager = (w.frame h).manager :=
    congrArg Prod.fst (hframe h).1
  have hview (h : FrameId) : (v.frame h).view = (w.frame h).view := congrArg Prod.snd (hframe h).1
  have hgen (h : FrameId) : (v.frame h).generation = (w.frame h).generation :=
    congrArg Visibility.generation (hview h)
  refine ⟨(map_stamp_eq hlength fun h => (hframe h).1).trans hw.stamps_eq, fun h hh => ?_,
    fun k => ?_, fun k => ?_, fun h hh => ?_, fun h j hlt hj => ?_, fun h _ _ => List.not_mem_nil,
    fun h hh => ?_, fun o r hr => ?_, fun k => ?_, fun k => ?_⟩
  · rw [hmanager, hmanagers]
    exact hw.known h (hlength ▸ hh)
  · simp only [hgen, hview, List.map_nil, ite_self, List.append_nil]
    by_cases hk : k = (w.frame f).manager
    · rw [hk, hself, hopen]
      exact closeAll_openTable hw hf
    · rw [hother hk, hsame hk, hw.table_eq, if_neg hk, List.append_nil]
  · rw [hconfig, hopen]
    exact Nat.le_trans (List.length_filter_le _ _) (hw.limit k)
  · rw [hmanager, hgen, hnext]
    exact hw.past h (hlength ▸ hh)
  · rw [hmanager, hmanager, hgen, hgen]
    exact hw.distinct h j hlt (hlength ▸ hj)
  · rw [(hframe h).2.1, (hframe h).2.2]
    exact hw.written h (hlength ▸ hh)
  · rw [hobject] at hr
    obtain ⟨hpast, htouched⟩ := hw.files o r hr
    rw [Files, hobject, hnext, hopen]
    refine ⟨hpast, fun h hh hgeneration => ?_⟩
    rw [(hframe h).2.1]
    exact htouched h (List.mem_filter.mp hh).1 (hgen h ▸ hgeneration)
  · by_cases hk : k = (w.frame f).manager
    · obtain ⟨hopened, hclosed, -⟩ := hchange (w.manager k).counters
      have hbefore := hw.opened k
      rw [hk] at hopened hclosed hbefore ⊢
      rw [hself]
      dsimp only
      omega
    · rw [hother hk, hsame hk]
      exact hw.opened k
  · by_cases hk : k = (w.frame f).manager
    · obtain ⟨-, -, hmerged⟩ := hchange (w.manager k).counters
      have hbefore := hw.merged k
      rw [if_pos hk] at hbefore ⊢
      rw [hk] at hmerged hbefore ⊢
      rw [hself, hreported]
      dsimp only
      omega
    · rw [hother hk, hreported, hw.merged k, if_neg hk, if_neg hk]

end shut

/-- An event reports merged objects that were counted. -/
theorem BalancedBut.report (hw : w.BalancedBut stamps m minted pending) {event : CommitEvent}
    (hevent : event.merged.length = pending) :
    (w.tell (.committed m event)).BalancedBut stamps m minted 0 := by
  refine { hw with merged := fun k => ?_ }
  have hreported : (w.tell (.committed m event)).reportedMerges k =
      w.reportedMerges k + if m = k then event.merged.length else 0 := by
    simp [reportedMerges, tell, Event.merges]
  rw [hreported, hevent, ite_self, Nat.add_zero]
  simp only [@eq_comm _ m k]
  exact hw.merged k

namespace SameBooks

/-- Discarding records, or trimming, is of no concern to the books. -/
theorem modifyChains (w : World α) (objects : List ObjectId) {f : Chain α → Chain α}
    (hf : ∀ c : Chain α, ∀ r ∈ (f c).records, ∃ s ∈ c.records, s.generation = r.generation) :
    (w.modifyChains objects f).SameBooks w :=
  foldl (fun v o => modifyChain v o hf) w objects

/-- What is trimmed is not in the books. -/
theorem trimObject (w : World α) (o : ObjectId) (view : GcView) :
    (w.trimObject o view).2.SameBooks w :=
  modifyChain w o fun _ r hr => ⟨r, Chain.mem_of_mem_trim hr, rfl⟩

/-- What a commit trims is not in the books, but for the counter that it is counted in. -/
theorem trimAll (w : World α) (m : ManagerId) (view : GcView) (objects : List ObjectId) :
    (w.trimAll m view objects).SameBooks w :=
  foldl (fun v o => (trimObject v o view).trans (count _ m fun _ => by simp)) w objects

end SameBooks

namespace Balanced

/-- The books stay balanced where nothing happened that they mention. -/
theorem of_same (hw : w.Balanced stamps) (h : v.SameBooks w) : v.Balanced stamps :=
  fun m => (hw m).of_same h

/-- A discarded frame leaves the books balanced. -/
theorem discardActive (hw : w.Balanced stamps) {f : FrameId} (hf : f < w.frames.length)
    (hactive : (w.frame f).isActive = true) : (w.discardActive f).Balanced stamps := by
  have hsame : (w.modifyChains (w.frame f).listed
      (·.discard (w.frame f).generation)).SameBooks w :=
    .modifyChains w _ fun _ _ hr => Chain.exists_of_mem_discard hr
  have hframes : (w.modifyChains (w.frame f).listed (·.discard (w.frame f).generation)).frames =
      w.frames := congrArg Outline.frames (outline_modifyChains ..)
  rw [World.discardActive, ← modifyChains]
  generalize w.modifyChains _ _ = v at hsame hframes
  have hframe : v.frame f = w.frame f := by rw [frame, hframes, frame]
  have hclosed : (v.shut f [] .discarded fun c =>
      { c with discarded := c.discarded + 1 }).BalancedBut stamps (v.frame f).manager [] 0 :=
    ((hw.of_same hsame) (v.frame f).manager).shut (hframes.symm ▸ hf) (hframe.symm ▸ hactive)
      (by decide) fun c => ⟨rfl, rfl, rfl⟩
  rw [shut, hframe] at hclosed
  exact hclosed.balanced

/-- A committed frame leaves the books balanced. -/
theorem commitActive (hw : w.Balanced stamps) (ho : w.Orderly) {f : FrameId}
    (hf : f < w.frames.length) (hactive : (w.frame f).isActive = true) :
    (w.commitActive f).2.Balanced stamps := by
  unfold World.commitActive
  dsimp only
  split
  · have hcounted : ((w.discardActive f).count (w.frame f).manager fun c =>
        { c with conflicts := c.conflicts + 1 }).SameBooks (w.discardActive f) :=
      .count _ _ fun _ => ⟨rfl, rfl, rfl, rfl⟩
    exact (hw.discardActive hf hactive).of_same hcounted
  next merges hchecked =>
  have howns : ∀ merge ∈ merges, (w.object merge.object).manager = (w.frame f).manager := by
    intro merge hmerge
    have hmem := (of_checkTouched_ok hchecked).1.subset (List.mem_map_of_mem hmerge)
    exact (ho.touched f hf _ (Frame.mem_listed.mp hmem)).2
  have hpublished := (hw (w.frame f).manager).publishMerges (hw 0 |>.known f hf)
    (w.frame f).generation howns
  have hframes : (w.publishMerges (w.frame f).manager (w.frame f).generation merges).2.frames =
      w.frames := congrArg Outline.frames (outline_publishMerges ..)
  generalize w.publishMerges (w.frame f).manager (w.frame f).generation merges = published
    at hpublished hframes
  have hframe : published.2.frame f = w.frame f := by rw [frame, hframes, frame]
  rw [List.nil_append, ← hframe] at hpublished
  have hclosed : (published.2.shut f published.1 .committed fun c =>
      { c with committed := c.committed + 1, merged := c.merged + merges.length }).BalancedBut
        stamps (published.2.frame f).manager [] merges.length :=
    hpublished.shut (hframes.symm ▸ hf) (hframe.symm ▸ hactive) (by decide)
      fun c => ⟨rfl, Nat.add_right_comm _ _ _, rfl⟩
  rw [shut, hframe] at hclosed
  have hreport {u : World α} (hu : u.BalancedBut stamps (w.frame f).manager [] merges.length) :
      (u.tell (.committed (w.frame f).manager
        { generation := (w.frame f).generation, changed := (w.frame f).listed,
          merged := merges.map (·.object), mergedGenerations := published.1 })).Balanced stamps :=
    (hu.report (List.length_map _)).balanced
  split
  · exact hreport (hclosed.of_same (.trimAll _ _ _ _))
  · exact hreport hclosed

/-- The books stay balanced when a frame is discarded. -/
theorem discard (hw : w.Balanced stamps) {f : FrameId} (hf : f < w.frames.length) :
    (w.discard f).Balanced stamps := by
  rw [World.discard]
  split
  · next hactive => exact hw.discardActive hf hactive
  · exact hw

/-- The books stay balanced when a frame is committed. -/
theorem commit (hw : w.Balanced stamps) (ho : w.Orderly) {f : FrameId}
    (hf : f < w.frames.length) : (w.commit f).2.Balanced stamps := by
  rw [World.commit]
  dsimp only
  split
  · next hactive => exact hw.commitActive ho hf hactive
  · exact hw

/-- The books stay balanced when a frame is let go of. -/
theorem release (hw : w.Balanced stamps) {f : FrameId} (hf : f < w.frames.length) :
    (w.release f).Balanced stamps := by
  have hletGo : (w.letGo f).SameBooks w :=
    .modifyFrame w f fun _ => ⟨rfl, rfl, List.Subset.refl _, fun _ => Or.inl⟩
  rw [World.release, ← letGo]
  split
  · exact (hw.of_same hletGo).discard (hletGo.length_frames.symm ▸ hf)
  · exact hw.of_same hletGo

end Balanced

/-! ## Opening -/

/-- The generations of the open frames of a manager. -/
def openGenerations (w : World α) (m : ManagerId) : List Generation :=
  (w.openFrames m).map fun f => (w.frame f).generation

/-- What a frame that a manager opens next is stamped with: the next generation, and those of the
frames that are open. -/
def nextStamp (w : World α) (m : ManagerId) : ManagerId × Visibility :=
  (m, .ofFrame (w.manager m).next (w.openGenerations m))

/-- The world with one more frame, whose generation is opened and counted. -/
def enlist (w : World α) (frame : Frame) : World α :=
  let v := { w with frames := w.frames ++ [frame] }
  (v.modifyManager frame.manager (·.openNext frame.view.invalid)).count frame.manager
    fun c => { c with opened := c.opened + 1 }

section enlist

variable {frame : Frame}

/-- The frames that were there stay what they were. -/
theorem frame_enlist {f : FrameId} (hf : f < w.frames.length) :
    (w.enlist frame).frame f = w.frame f := by
  simp [enlist, World.frame, count, modifyManager, List.getElem?_append_left hf]

/-- The new frame comes last. -/
theorem frame_enlist_new (w : World α) (frame : Frame) :
    (w.enlist frame).frame w.frames.length = frame := by
  simp [enlist, World.frame, count, modifyManager]

/-- There is one more frame. -/
theorem length_frames_enlist (w : World α) (frame : Frame) :
    (w.enlist frame).frames.length = w.frames.length + 1 := by
  simp [enlist, count, modifyManager]

/-- To enlist a frame adds no manager. -/
theorem length_managers_enlist (w : World α) (frame : Frame) :
    (w.enlist frame).managers.length = w.managers.length := by
  simp [enlist, count]

/-- A frame is an old one, unchanged, or the new one. -/
theorem frame_enlist_cases {f : FrameId} (hf : f < (w.enlist frame).frames.length) :
    f < w.frames.length ∧ (w.enlist frame).frame f = w.frame f ∨
      f = w.frames.length ∧ (w.enlist frame).frame f = frame := by
  rw [length_frames_enlist] at hf
  rcases Nat.lt_succ_iff_lt_or_eq.mp hf with hf | rfl
  · exact Or.inl ⟨hf, frame_enlist hf⟩
  · exact Or.inr ⟨rfl, frame_enlist_new w frame⟩

/-- The manager of the new frame opens its generation and counts. -/
theorem manager_enlist (hm : frame.manager < w.managers.length) :
    (w.enlist frame).manager frame.manager =
      { (w.manager frame.manager).openNext frame.view.invalid with
        counters := { (w.manager frame.manager).counters with
          opened := (w.manager frame.manager).counters.opened + 1 } } := by
  have hm' : frame.manager < (World.modifyManager { w with frames := w.frames ++ [frame] }
      frame.manager (·.openNext frame.view.invalid)).managers.length :=
    (length_managers_modifyManager ..).symm ▸ hm
  have hopened := manager_modifyManager_of_lt (w := { w with frames := w.frames ++ [frame] }) hm
    (·.openNext frame.view.invalid)
  rw [enlist, count, manager_modifyManager_of_lt hm', hopened]
  rfl

/-- Other managers stay what they were. -/
theorem manager_enlist_of_ne {k : ManagerId} (hk : k ≠ frame.manager) :
    (w.enlist frame).manager k = w.manager k :=
  (manager_modifyManager_of_ne hk _ _).trans (manager_modifyManager_of_ne hk _ _)

/-- No clock runs back. -/
theorem next_le_enlist (hm : frame.manager < w.managers.length) (k : ManagerId) :
    (w.manager k).next ≤ ((w.enlist frame).manager k).next := by
  by_cases hk : k = frame.manager
  · rw [hk, manager_enlist hm]
    exact Nat.le_succ _
  · exact Nat.le_of_eq (congrArg Manager.next (manager_enlist_of_ne hk)).symm

/-- The new frame comes last among the open frames of its manager. -/
theorem openFrames_enlist (hactive : frame.isActive = true) (k : ManagerId) :
    (w.enlist frame).openFrames k =
      w.openFrames k ++ if k = frame.manager then [w.frames.length] else [] := by
  rw [openFrames, openFrames, length_frames_enlist, List.range_succ, List.filter_append]
  congr 1
  · refine List.filter_congr fun f hf => ?_
    rw [frame_enlist (List.mem_range.mp hf)]
  · rw [List.filter_singleton, frame_enlist_new, hactive, Bool.and_true]
    by_cases hk : k = frame.manager
    · simp [hk]
    · have hne : (frame.manager == k) = false := beq_eq_false_iff_ne.mpr (Ne.symm hk)
      simp [hk, hne]

end enlist

namespace Balanced

/-- The open table is read off the open frames. -/
theorem openTable_eq (hw : w.Balanced stamps) (m : ManagerId) : (w.manager m).openTable =
    (w.openFrames m).map fun f => ((w.frame f).generation, (w.frame f).view.invalid) := by
  rw [(hw m).table_eq m, if_pos rfl, List.map_nil, List.append_nil]

/-- The open generations are those of the open frames. -/
theorem openGenerations_eq (hw : w.Balanced stamps) (m : ManagerId) :
    (w.manager m).openGenerations = w.openGenerations m := by
  rw [Manager.openGenerations, hw.openTable_eq, List.map_map]
  rfl

/-- A manager with room for one more frame opens it with the generations of those that are open. -/
theorem enlist (hw : w.Balanced stamps) {frame : Frame} (hm : frame.manager < w.managers.length)
    (hactive : frame.isActive = true)
    (hroom : (w.openFrames frame.manager).length < (w.manager frame.manager).config.maxOpenFrames)
    (hgeneration : frame.generation = (w.manager frame.manager).next)
    (hwritten : frame.written = []) :
    (w.enlist frame).Balanced (stamps ++ [frame.stamp]) := by
  have hself := manager_enlist hm
  have hother {k : ManagerId} (hk : k ≠ frame.manager) :
      (w.enlist frame).manager k = w.manager k := manager_enlist_of_ne hk
  have hnext := next_le_enlist hm
  have hold {f : FrameId} (hf : f < (w.enlist frame).frames.length) := frame_enlist_cases hf
  have hbefore (k : ManagerId) : (w.openFrames k).map (fun f =>
      (((w.enlist frame).frame f).generation, ((w.enlist frame).frame f).view.invalid)) =
        (w.manager k).openTable := by
    rw [hw.openTable_eq k]
    refine List.map_congr_left fun f hf => ?_
    rw [frame_enlist (mem_openFrames.mp hf).1]
  apply BalancedBut.balanced (m := 0)
  refine ⟨?_, fun f hf => ?_, fun k => ?_, fun k => ?_, fun f hf => ?_,
    fun f h hlt hh hmanager => ?_, fun _ _ _ => List.not_mem_nil, fun f hf => ?_,
    fun o r hr => ?_, fun k => ?_, fun k => ?_⟩
  · rw [← (hw 0).stamps_eq]
    exact List.map_append ..
  · rw [length_managers_enlist]
    rcases hold hf with ⟨hf, heq⟩ | ⟨-, heq⟩
    · rw [heq]
      exact (hw 0).known f hf
    · rw [heq]
      exact hm
  · rw [openFrames_enlist hactive, List.map_append, hbefore, List.map_nil, ite_self,
      List.append_nil]
    by_cases hk : k = frame.manager
    · rw [hk, hself, if_pos rfl, List.map_singleton, frame_enlist_new, hgeneration]
      rfl
    · rw [hother hk, if_neg hk, List.map_nil, List.append_nil]
  · rw [openFrames_enlist hactive]
    by_cases hk : k = frame.manager
    · rw [hk, hself, if_pos rfl, List.length_append]
      exact hroom
    · rw [hother hk, if_neg hk, List.append_nil]
      exact (hw 0).limit k
  · rcases hold hf with ⟨hf, heq⟩ | ⟨-, heq⟩
    · rw [heq]
      exact Nat.lt_of_lt_of_le ((hw 0).past f hf) (hnext _)
    · rw [heq, hself, hgeneration]
      exact Nat.lt_succ_self _
  · obtain ⟨hf, heq⟩ : f < w.frames.length ∧ (w.enlist frame).frame f = w.frame f := by
      rw [length_frames_enlist] at hh
      have hf := Nat.lt_of_lt_of_le hlt (Nat.le_of_lt_succ hh)
      exact ⟨hf, frame_enlist hf⟩
    rw [heq] at hmanager ⊢
    rcases hold hh with ⟨hh, heq'⟩ | ⟨-, heq'⟩
    · rw [heq'] at hmanager ⊢
      exact (hw 0).distinct f h hlt hh hmanager
    · rw [heq'] at hmanager ⊢
      rw [hgeneration, ← hmanager]
      exact (hw 0).past f hf
  · rcases hold hf with ⟨hf, heq⟩ | ⟨-, heq⟩
    · rw [heq]
      exact (hw 0).written f hf
    · rw [heq, hwritten]
      exact List.nil_subset _
  · obtain ⟨hpast, htouched⟩ := (hw 0).files o r hr
    refine ⟨Nat.lt_of_lt_of_le hpast (hnext _), fun f hf hgen => ?_⟩
    obtain ⟨hlt, hmanager, hopen⟩ := mem_openFrames.mp hf
    rcases hold hlt with ⟨hf, heq⟩ | ⟨-, heq⟩
    · rw [heq] at hmanager hopen hgen ⊢
      exact htouched f (mem_openFrames.mpr ⟨hf, hmanager, hopen⟩) hgen
    · -- No record is of a generation that was only just taken from the clock.
      rw [heq] at hmanager hgen
      have hlt : r.generation < (w.manager frame.manager).next := hmanager.symm ▸ hpast
      exact absurd (hgen.symm.trans hgeneration) (Nat.ne_of_lt hlt)
  · have hopened := (hw 0).opened k
    rw [openFrames_enlist hactive, List.length_append]
    by_cases hk : k = frame.manager
    · rw [hk] at hopened ⊢
      rw [hself, if_pos rfl]
      exact (congrArg (· + 1) hopened).trans (Nat.add_assoc _ _ _)
    · rw [hother hk, if_neg hk]
      exact hopened
  · have hmerged := (hw 0).merged k
    by_cases hk : k = frame.manager
    · rw [hk] at hmerged ⊢
      rw [hself]
      exact hmerged
    · rw [hother hk]
      exact hmerged

/-- A manager refuses to open a frame if as many are open as may be, and then nothing changes. Any
other frame is opened with the generations of those that are open. -/
theorem openFrame (hw : w.Balanced stamps) (hm : m < w.managers.length) (options : FrameOptions) :
    if (w.manager m).config.maxOpenFrames ≤ (w.openFrames m).length then
      w.openFrame m options =
        (.error (.tooManyOpenFrames (w.manager m).config.maxOpenFrames), w)
    else (w.openFrame m options).1 = .ok w.frames.length ∧
      (w.openFrame m options).2.Balanced (stamps ++ [w.nextStamp m]) := by
  have hcount : (w.manager m).openTable.length = (w.openFrames m).length := by
    rw [hw.openTable_eq, List.length_map]
  split
  · next hfull =>
    rw [World.openFrame, if_pos (hcount.symm ▸ hfull)]
  · next hroom =>
    have henlisted : (w.enlist { manager := m, view := (w.nextStamp m).2, options }).Balanced
        (stamps ++ [w.nextStamp m]) := hw.enlist hm rfl (Nat.lt_of_not_le hroom) rfl rfl
    rw [World.openFrame, if_neg (hcount.symm ▸ hroom), hw.openGenerations_eq]
    refine ⟨?_, henlisted⟩
    simp [World.modifyManager]

end Balanced

end World

end VersionedObjects.Store
