import VersionedObjects.Proofs.Store.OpenTable
import VersionedObjects.Proofs.Store.WritableFrame

/-!
# Where objects are made

An object is made inside a writable frame, or outside of all frames, where it is committed at once.
Either way its values are filled into its only record before anyone else has one, and what was
filled in is what it shows: to that frame, or to every frame that is opened later.
-/

namespace VersionedObjects.Store

variable {α : Type}

namespace World

/-! ## Filling in -/

/-- A world that differs from another in the values of one object at most, apart from what is
counted and told. -/
structure Fills (o : ObjectId) (v u : World α) : Prop where
  current : u.current = v.current
  frames : u.frames = v.frames
  managers : u.managers.length = v.managers.length
  next : ∀ m, (u.manager m).next = (v.manager m).next
  openTable : ∀ m, (u.manager m).openTable = (v.manager m).openTable
  length : u.objects.length = v.objects.length
  others : ∀ p, p ≠ o → (u.object p).manager = (v.object p).manager ∧
    (u.object p).chain = (v.object p).chain

variable {u v w : World α} {m : ManagerId} {f : FrameId} {o : ObjectId} {g : Generation}
  {value : α}

/-- Doing nothing fills nothing. -/
theorem Fills.refl (o : ObjectId) (w : World α) : Fills o w w :=
  ⟨rfl, rfl, rfl, fun _ => rfl, fun _ => rfl, rfl, fun _ _ => ⟨rfl, rfl⟩⟩

/-- Two steps that only fill the records of an object do so together. -/
theorem Fills.trans (h : Fills o w v) (h' : Fills o v u) : Fills o w u where
  current := h'.current.trans h.current
  frames := h'.frames.trans h.frames
  managers := h'.managers.trans h.managers
  next m := (h'.next m).trans (h.next m)
  openTable m := (h'.openTable m).trans (h.openTable m)
  length := h'.length.trans h.length
  others p hp :=
    ⟨(h'.others p hp).1.trans (h.others p hp).1, (h'.others p hp).2.trans (h.others p hp).2⟩

/-- A store into the sole record of an object fills it and changes nothing else. -/
theorem fills_store (h : w.Sole m o g value) (change : α → α) : Fills o w (w.store o g change) where
  current := rfl
  frames := rfl
  managers := rfl
  next _ := rfl
  openTable _ := rfl
  length := length_objects_modifyObject w o _
  others p hp := by
    rw [(h.store change).2 p hp]
    exact ⟨rfl, rfl⟩

/-- Counting leaves the next generation and the open frames of every manager as they are. -/
theorem manager_count (w : World α) (m n : ManagerId) (change : Counters → Counters) :
    ((w.count m change).manager n).next = (w.manager n).next ∧
      ((w.count m change).manager n).openTable = (w.manager n).openTable := by
  simp only [manager, count, modifyManager, List.getElem?_modify]
  by_cases hn : m = n
  · cases h : w.managers[n]? <;> simp [hn]
  · simp [hn]

/-- Telling the creation of an object changes no record. -/
theorem fills_notifyCreated (w : World α) (o : ObjectId) : Fills o w (w.notifyCreated o) := by
  obtain ⟨hcurrent, hframes, hlength, hobjects⟩ := notifyCreated_keeps w o
  unfold notifyCreated at *
  dsimp only at *
  split
  · exact .refl o w
  · next hannounced =>
    rw [if_neg hannounced] at hcurrent hframes hlength hobjects
    have hcount (n : ManagerId) := manager_count w (w.object o).manager n
      fun c => { c with created := c.created + 1 }
    refine ⟨hcurrent, hframes, ?_, fun n => ?_, fun n => ?_, hlength, fun p _ => hobjects p⟩
    · exact length_managers_modifyManager _ _ _
    · exact (hcount n).1
    · exact (hcount n).2

/-- The sole record is still the only one after the creation has been told. -/
theorem Sole.notifyCreated (h : w.Sole m o g value) : (w.notifyCreated o).Sole m o g value := by
  obtain ⟨hmanager, hchain⟩ := (notifyCreated_keeps w o).2.2.2 o
  exact ⟨hmanager.trans h.manager, hchain.trans h.chain⟩

/-! ## Sites -/

/-- A place where objects of a manager are made, by the worlds at which it is there and what an
object then holds: an object made there holds what is filled into it, and takes nothing from the
others. -/
structure Site (m : ManagerId) (there : World α → Prop) (holds : World α → ObjectId → α → Prop) :
    Prop where
  lt_length : ∀ {w o value}, holds w o value → o < w.objects.length
  made : ∀ {w v o typeName merge initial}, there w →
    w.newObject m typeName merge initial = (o, v) →
      o = w.objects.length ∧ ∃ g, v.Sole m o g initial ∧
        ∀ u value, Fills o v u → u.Sole m o g value →
          there u ∧ holds u o value ∧ ∀ p x, holds w p x → holds u p x

/-- Objects may be made inside a writable frame. -/
theorem site_inside (m : ManagerId) (f : FrameId) :
    Site (α := α) m (·.Inside m f) fun w o value => w.Shows m f o value where
  lt_length h := h.lt_length
  made := by
    intro w v o typeName merge initial hw hnew
    obtain ⟨ho, hcurrent, hstance, hsole, hold⟩ := hw.newObject typeName merge initial hnew
    refine ⟨ho, _, hsole, fun u value hu hvalue => ?_⟩
    have hframe : u.frame f = v.frame f := by
      rw [frame, hu.frames, ← frame]
    have hafter : (u.frame f).stance = (w.frame f).stance := by rw [hframe, hstance]
    have hinside := hw.of_stance (hu.current.trans hcurrent) hafter
    have hgeneration : (w.frame f).generation = (u.frame f).generation :=
      congrArg Visibility.generation (Frame.view_of_stance hafter).symm
    rw [hgeneration] at hvalue
    refine ⟨hinside, hvalue.shows hinside, fun p x hx => ?_⟩
    have hp := hx.lt_length
    obtain ⟨hmanager, hchain⟩ := hu.others p (Nat.ne_of_lt (ho ▸ hp))
    rw [hold p hp] at hmanager hchain
    exact hx.of_object hafter hmanager hchain

/-- No frame is current in which objects of the manager would be made. -/
structure Outside (w : World α) (m : ManagerId) : Prop where
  making : w.makingFrame? m = none
  managed : m < w.managers.length
  timely : Timely (w.manager m).next (w.manager m).openTable

/-- The only record of an object is committed. -/
def Settled (w : World α) (m : ManagerId) (o : ObjectId) (value : α) : Prop :=
  ∃ g, w.Sole m o g value ∧ g < (w.manager m).next ∧ g ∉ (w.manager m).openGenerations

/-- Where an object is made is decided by the entered frames and their state alone. -/
theorem makingFrame?_congr (hcurrent : v.current = w.current) (hframes : v.frames = w.frames)
    (m : ManagerId) : v.makingFrame? m = w.makingFrame? m := by
  simp only [makingFrame?, currentFrameOf?, frame, hcurrent, hframes]

/-- An object made outside of frames has one record, of a generation of its own. -/
theorem Outside.newObject (hw : w.Outside m) (typeName : String) (merge : α → α → α → Option α)
    (initial : α) (h : w.newObject m typeName merge initial = (o, v)) :
    o = w.objects.length ∧ v.makingFrame? m = none ∧ v.managers.length = w.managers.length ∧
      (v.manager m).next = (w.manager m).next + 1 ∧
      (v.manager m).openTable = (w.manager m).openTable ∧
      v.Sole m o (w.manager m).next initial ∧
      ∀ p, p < w.objects.length → v.object p = w.object p := by
  rw [World.newObject, hw.making] at h
  cases h
  refine ⟨rfl, hw.making, by simp, ?_, ?_, ⟨?_, ?_⟩, fun p hp => ?_⟩
  · simp [manager, modifyManager, List.getElem?_eq_getElem hw.managed]
  · simp [manager, modifyManager, List.getElem?_eq_getElem hw.managed]
  · simp [object, modifyManager]
  · simp [object, modifyManager]
  · simp [object, modifyManager, List.getElem?_append_left hp]

/-- Objects may be made outside of frames. -/
theorem site_outside (m : ManagerId) : Site (α := α) m (·.Outside m) (Settled · m) where
  lt_length h := by
    obtain ⟨g, hsole, -⟩ := h
    exact hsole.lt_length
  made := by
    intro w v o typeName merge initial hw hnew
    obtain ⟨ho, hmaking, hlength, hclock, hkept, hsole, hold⟩ :=
      hw.newObject typeName merge initial hnew
    refine ⟨ho, _, hsole, fun u value hu hvalue => ?_⟩
    have hnext : (u.manager m).next = (w.manager m).next + 1 := (hu.next m).trans hclock
    have htable : (u.manager m).openTable = (w.manager m).openTable := (hu.openTable m).trans hkept
    have hopen : (u.manager m).openGenerations = (w.manager m).openGenerations :=
      congrArg (List.map Prod.fst) htable
    refine ⟨⟨?_, ?_, ?_⟩, ⟨_, hvalue, ?_, ?_⟩, ?_⟩
    · exact (makingFrame?_congr hu.current hu.frames m).trans hmaking
    · rw [hu.managers, hlength]
      exact hw.managed
    · rw [hnext, htable]
      exact hw.timely.mono (Nat.le_succ _)
    · rw [hnext]
      exact Nat.lt_succ_self _
    · rw [hopen]
      exact hw.timely.next_notMem (Nat.le_refl _)
    · rintro p x ⟨g, hp, hlt, hclosed⟩
      obtain ⟨hmanager, hchain⟩ := hu.others p (Nat.ne_of_lt (ho ▸ hp.lt_length))
      rw [hold p hp.lt_length] at hmanager hchain
      refine ⟨g, ⟨hmanager.trans hp.manager, hchain.trans hp.chain⟩, ?_, hopen ▸ hclosed⟩
      rw [hnext]
      exact Nat.lt_succ_of_lt hlt

/-- A frame that is opened later shows what was committed. -/
theorem Settled.shows {options : FrameOptions} (h : w.Settled m o value)
    (hopen : w.openFrame m options = (.ok f, v)) (henter : v.enterFrame f = (.ok (), u)) :
    u.Shows m f o value := by
  obtain ⟨g, hsole, hlt, hclosed⟩ := h
  obtain ⟨hobjects, hview⟩ : u.objects = w.objects ∧ (u.frame f).view =
      .ofFrame (w.manager m).next (w.manager m).openGenerations := by
    unfold openFrame at hopen
    dsimp only at hopen
    split at hopen
    · cases hopen
    · cases hopen
      unfold enterFrame at henter
      split at henter
      · cases henter
      · cases henter
        simp [hold, modifyFrame, count, modifyManager, frame]
  have hobject : u.object o = w.object o := by
    rw [object, hobjects, ← object]
  refine ⟨by rw [hobject, hsole.manager], ?_⟩
  rw [hobject, hsole.chain, hview]
  refine ⟨Chain.ascending_singleton _, ?_, { generation := g, base := none, value }, ?_, rfl⟩
  · intro r hr
    rw [List.mem_singleton.mp (Chain.mem_of_find? hr).1]
  · have hsee : (Visibility.ofFrame (w.manager m).next (w.manager m).openGenerations).canSee g =
        true := Visibility.canSee_ofFrame.mpr (.inr ⟨hlt, hclosed⟩)
    simp [Chain.select?, Chain.newest?, Chain.singleton, Record.visibleTo, hsee]

end World

end VersionedObjects.Store
