import VersionedObjects.Proofs.Store.Ledger
import VersionedObjects.Store.Access

/-!
# Worlds of one manager

A world of one manager is, apart from its counters and its log, a ledger and an outline: the
frames, the current frame, and what never changes of the objects. One equation for each primitive
change of the world and either part.
-/

namespace VersionedObjects.Store

variable {α : Type}

namespace World

variable {w : World α}

/-- The ledger of the first manager. -/
def ledger (w : World α) : Ledger α where
  next := (w.manager 0).next
  table := (w.manager 0).openTable
  chain o := (w.object o).chain

/-- What a world is apart from the ledger, the counters and the log. -/
structure Outline (α : Type) where
  managers : Nat
  config : Config
  frames : List Frame
  current : Option FrameId
  /-- What never changes of the objects made so far. -/
  identities : List (ManagerId × String × (α → α → α → Option α))

/-- The outline with a frame changed. -/
def Outline.modifyFrame (outline : Outline α) (f : FrameId) (g : Frame → Frame) : Outline α :=
  { outline with frames := outline.frames.modify f g }

/-- The outline of a world, with the settings of the first manager. -/
def outline (w : World α) : Outline α where
  managers := w.managers.length
  config := (w.manager 0).config
  frames := w.frames
  current := w.current
  identities := w.objects.map fun object => (object.manager, object.typeName, object.merge)

/-! ## Managers -/

/-- To change a manager adds none and takes none away. -/
@[simp] theorem length_managers_modifyManager (w : World α) (m : ManagerId)
    (f : Manager → Manager) : (w.modifyManager m f).managers.length = w.managers.length :=
  List.length_modify ..

/-- The one manager there is is changed. -/
theorem manager_modifyManager (hsole : w.managers.length = 1) (f : Manager → Manager) :
    (w.modifyManager 0 f).manager 0 = f (w.manager 0) := by
  have h0 : w.managers[0]? = some w.managers[0] := List.getElem?_eq_getElem _
  simp [manager, modifyManager, h0]

/-- A change to a manager that leaves something of it alone leaves it alone in the world. -/
theorem manager_modifyManager_of_eq {β : Type} (p : Manager → β) {f : Manager → Manager}
    (hp : ∀ manager, p (f manager) = p manager) (w : World α) (m k : ManagerId) :
    p ((w.modifyManager m f).manager k) = p (w.manager k) := by
  simp only [manager, modifyManager, List.getElem?_modify]
  cases w.managers[k]? with
  | none => rfl
  | some manager =>
    by_cases hk : m = k <;> simp [hk, hp]

/-! ## Frames -/

/-- To change a frame changes that one and no other. -/
theorem frame_modifyFrame {f : FrameId} (hf : f < w.frames.length) (g : Frame → Frame)
    (h : FrameId) : (w.modifyFrame f g).frame h = if h = f then g (w.frame h) else w.frame h := by
  simp only [frame, modifyFrame, List.getElem?_modify]
  by_cases hh : h = f
  · subst hh
    simp [List.getElem?_eq_getElem hf]
  · simp [hh, Ne.symm hh]

/-- To change a frame adds none and takes none away. -/
@[simp] theorem length_frames_modifyFrame (w : World α) (f : FrameId) (g : Frame → Frame) :
    (w.modifyFrame f g).frames.length = w.frames.length :=
  List.length_modify ..

/-! ## Objects -/

/-- To change an object changes that one and no other. -/
theorem object_modifyObject {o : ObjectId} (ho : o < w.objects.length) (f : Object α → Object α)
    (p : ObjectId) :
    (w.modifyObject o f).object p = if p = o then f (w.object p) else w.object p := by
  simp only [object, modifyObject, List.getElem?_modify]
  by_cases hp : p = o
  · subst hp
    simp [List.getElem?_eq_getElem ho]
  · simp [hp, Ne.symm hp]

/-- To change an object adds none and takes none away. -/
@[simp] theorem length_objects_modifyObject (w : World α) (o : ObjectId)
    (f : Object α → Object α) : (w.modifyObject o f).objects.length = w.objects.length :=
  List.length_modify ..

/-- An object that was not made has an empty chain. -/
theorem chain_eq_nil {o : ObjectId} (ho : w.objects.length ≤ o) :
    (w.ledger.chain o).records = [] := by
  simp only [ledger, object, List.getElem?_eq_none ho, Option.getD_none]
  rfl

/-! ## Ledgers -/

/-- The clock and the open table of the ledger are those of the manager. -/
theorem ledger_modifyManager (hsole : w.managers.length = 1) (f : Manager → Manager) :
    (w.modifyManager 0 f).ledger =
      { w.ledger with next := (f (w.manager 0)).next, table := (f (w.manager 0)).openTable } := by
  rw [ledger, manager_modifyManager hsole]
  rfl

/-- Counters are not on the ledger. -/
@[simp] theorem ledger_count (w : World α) (m : ManagerId) (f : Counters → Counters) :
    (w.count m f).ledger = w.ledger := by
  have hnext := manager_modifyManager_of_eq Manager.next
    (f := fun manager => { manager with counters := f manager.counters }) (fun _ => rfl) w m 0
  have htable := manager_modifyManager_of_eq Manager.openTable
    (f := fun manager => { manager with counters := f manager.counters }) (fun _ => rfl) w m 0
  simp only [ledger, count, hnext, htable]
  rfl

/-- Frames are not on the ledger. -/
@[simp] theorem ledger_modifyFrame (w : World α) (f : FrameId) (g : Frame → Frame) :
    (w.modifyFrame f g).ledger = w.ledger :=
  rfl

/-- What frames touched is not on the ledger. -/
@[simp] theorem ledger_touch (w : World α) (f : FrameId) (o : ObjectId) :
    (w.touch f o).ledger = w.ledger :=
  rfl

/-- What observers were told is not on the ledger. -/
@[simp] theorem ledger_tell (w : World α) (event : Event) : (w.tell event).ledger = w.ledger :=
  rfl

/-- To change the chain of an object is to change it on the ledger. -/
theorem ledger_modifyChain {o : ObjectId} (ho : o < w.objects.length) (f : Chain α → Chain α) :
    (w.modifyChain o f).ledger = w.ledger.modifyChain o f := by
  simp only [ledger, Ledger.modifyChain, modifyChain, object_modifyObject ho, Ledger.mk.injEq]
  refine ⟨rfl, rfl, ?_⟩
  funext p
  by_cases hp : p = o <;> simp [hp]

/-- A change to an object that leaves its chain alone leaves the ledger alone. -/
theorem ledger_modifyObject (w : World α) (o : ObjectId) {f : Object α → Object α}
    (hf : ∀ object, (f object).chain = object.chain) :
    (w.modifyObject o f).ledger = w.ledger := by
  rw [ledger, ledger, Ledger.mk.injEq]
  refine ⟨rfl, rfl, funext fun p => ?_⟩
  simp only [object, modifyObject, List.getElem?_modify]
  cases w.objects[p]? with
  | none => rfl
  | some object => by_cases hp : o = p <;> simp [hp, hf]

/-! ## Outlines -/

/-- Of a manager only the settings are in the outline. -/
theorem outline_modifyManager (w : World α) (m : ManagerId) {f : Manager → Manager}
    (hf : ∀ manager, (f manager).config = manager.config) :
    (w.modifyManager m f).outline = w.outline := by
  have hconfig := manager_modifyManager_of_eq Manager.config hf w m 0
  simp only [outline, hconfig, length_managers_modifyManager]
  rfl

/-- Counters are not in the outline. -/
@[simp] theorem outline_count (w : World α) (m : ManagerId) (f : Counters → Counters) :
    (w.count m f).outline = w.outline :=
  w.outline_modifyManager m fun _ => rfl

/-- What observers were told is not in the outline. -/
@[simp] theorem outline_tell (w : World α) (event : Event) :
    (w.tell event).outline = w.outline :=
  rfl

/-- To change a frame is to change it in the outline. -/
@[simp] theorem outline_modifyFrame (w : World α) (f : FrameId) (g : Frame → Frame) :
    (w.modifyFrame f g).outline = w.outline.modifyFrame f g :=
  rfl

/-- Of an object only its identity is in the outline. -/
theorem outline_modifyObject (w : World α) (o : ObjectId) {f : Object α → Object α}
    (hf : ∀ object, ((f object).manager, (f object).typeName, (f object).merge) =
      (object.manager, object.typeName, object.merge)) :
    (w.modifyObject o f).outline = w.outline := by
  have hobjects : (w.modifyObject o f).outline.identities = w.outline.identities := by
    refine List.ext_getElem? fun i => ?_
    simp only [outline, modifyObject, List.getElem?_map, List.getElem?_modify]
    cases w.objects[i]? with
    | none => rfl
    | some object => by_cases hi : o = i <;> simp [hi, hf]
  rw [outline, outline, Outline.mk.injEq]
  exact ⟨rfl, rfl, rfl, rfl, hobjects⟩

/-- Chains are not in the outline. -/
@[simp] theorem outline_modifyChain (w : World α) (o : ObjectId) (f : Chain α → Chain α) :
    (w.modifyChain o f).outline = w.outline :=
  w.outline_modifyObject o fun _ => rfl

/-- The identities fix everything about an object but its chain. -/
theorem object_of_identities {v w : World α} (h : v.outline.identities = w.outline.identities)
    (o : ObjectId) :
    (v.object o).manager = (w.object o).manager ∧ (v.object o).typeName = (w.object o).typeName ∧
      (v.object o).merge = (w.object o).merge := by
  have hid := congrArg (·[o]?) h
  simp only [outline, List.getElem?_map] at hid
  simp only [object]
  cases hv : v.objects[o]? <;> cases hw : w.objects[o]? <;> simp_all

/-- Where the identities are the same as many objects were made. -/
theorem length_objects_of_identities {v w : World α}
    (h : v.outline.identities = w.outline.identities) : v.objects.length = w.objects.length := by
  simpa [outline] using congrArg List.length h

/-! ## What never changes of frames -/

/-- A later outline has the same settings, and every frame with its view. -/
structure Outline.Keeps (later outline : Outline α) : Prop where
  config : later.config = outline.config
  frames : ∀ (f : FrameId) (frame : Frame), outline.frames[f]? = some frame →
    ∃ other, later.frames[f]? = some other ∧ other.view = frame.view

namespace Outline.Keeps

variable {outline later latest : Outline α}

/-- An outline with the same settings and frames keeps what another one has. -/
theorem of_eq (hconfig : later.config = outline.config) (hframes : later.frames = outline.frames) :
    later.Keeps outline :=
  ⟨hconfig, fun _ frame hf => ⟨frame, hframes ▸ hf, rfl⟩⟩

/-- An outline keeps what it has. -/
theorem refl (outline : Outline α) : outline.Keeps outline :=
  of_eq rfl rfl

/-- What is kept twice is kept. -/
theorem trans (h : later.Keeps outline) (h' : latest.Keeps later) : latest.Keeps outline := by
  refine ⟨h'.config.trans h.config, fun f frame hf => ?_⟩
  obtain ⟨other, hother, hview⟩ := h.frames f frame hf
  obtain ⟨last, hlast, hview'⟩ := h'.frames f other hother
  exact ⟨last, hlast, hview'.trans hview⟩

/-- A frame may be changed in all but its view. -/
theorem modifyFrame (outline : Outline α) (f : FrameId) {g : Frame → Frame}
    (hview : ∀ frame, (g frame).view = frame.view) : (outline.modifyFrame f g).Keeps outline := by
  refine ⟨rfl, fun h frame hframe => ?_⟩
  rw [Outline.modifyFrame, List.getElem?_modify, hframe]
  by_cases hh : f = h
  · exact ⟨g frame, by simp [hh], hview frame⟩
  · exact ⟨frame, by simp [hh], rfl⟩

/-- One more frame leaves the others what they were. -/
theorem addFrame (outline : Outline α) (frame : Frame) :
    { outline with frames := outline.frames ++ [frame] : Outline α }.Keeps outline := by
  refine ⟨rfl, fun h other hother => ⟨other, ?_, rfl⟩⟩
  obtain ⟨hlt, -⟩ := List.getElem?_eq_some_iff.mp hother
  rw [List.getElem?_append_left hlt, hother]

end Outline.Keeps

/-- What a later outline keeps of a frame. -/
theorem frame_of_keeps {v w : World α} (h : v.outline.Keeps w.outline) {f : FrameId}
    (hf : f < w.frames.length) : f < v.frames.length ∧ (v.frame f).view = (w.frame f).view := by
  have hframe : w.frames[f]? = some (w.frame f) := by
    rw [frame, List.getElem?_eq_getElem hf, Option.getD_some]
  obtain ⟨other, hother, hview⟩ := h.frames f (w.frame f) hframe
  have hother : v.frames[f]? = some other := hother
  have heq : v.frame f = other := by rw [frame, hother, Option.getD_some]
  exact ⟨(List.getElem?_eq_some_iff.mp hother).1, heq ▸ hview⟩

end World

end VersionedObjects.Store
