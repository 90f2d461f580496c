import VersionedObjects.Proofs.Store.Balance
import VersionedObjects.Proofs.Store.Independence
import VersionedObjects.Proofs.Store.MadeObjects

/-!
# Later worlds

Whatever is asked of the store, clocks never go back, frames keep what they may see, and observers
are told of the creation of an object just when it comes to be announced. A generation that was
taken and is closed is never opened again, so every frame that is opened later sees it. Main
statements: `later_serve`, `Later.canSee` and `Later.creations_eq`.
-/

namespace VersionedObjects.Store

variable {α : Type}

/-- How often events tell of the creation of an object. -/
def creations (events : List Event) (o : ObjectId) : Nat :=
  (events.filterMap Event.created?).count o

/-- Where nothing was told no creation was. -/
@[simp] theorem creations_nil (o : ObjectId) : creations [] o = 0 :=
  rfl

/-- The notices of a creation add up. -/
@[simp] theorem creations_append (events more : List Event) (o : ObjectId) :
    creations (events ++ more) o = creations events o + creations more o := by
  simp [creations, List.filterMap_append, List.count_append]

/-! ## Managers and views -/

/-- The clock of a manager went on. What is open now was open before, or was taken from the clock
meanwhile. -/
structure Manager.Later (later m : Manager) : Prop where
  next : m.next ≤ later.next
  opened : ∀ g ∈ later.openGenerations, g ∈ m.openGenerations ∨ m.next ≤ g ∧ g < later.next

namespace Manager.Later

variable {m later latest : Manager}

/-- A manager is a later one of any with the same clock and open table. -/
theorem of_eq (hnext : later.next = m.next) (htable : later.openTable = m.openTable) :
    later.Later m := by
  refine ⟨Nat.le_of_eq hnext.symm, fun g hg => Or.inl ?_⟩
  rwa [openGenerations, htable] at hg

/-- A manager is a later one of itself. -/
theorem refl (m : Manager) : m.Later m :=
  of_eq rfl rfl

/-- What is later than a later manager is later. -/
theorem trans (h : later.Later m) (h' : latest.Later later) : latest.Later m := by
  refine ⟨Nat.le_trans h.next h'.next, fun g hg => ?_⟩
  rcases h'.opened g hg with hopen | ⟨hle, hlt⟩
  · exact (h.opened g hopen).imp_right fun hg => ⟨hg.1, Nat.lt_of_lt_of_le hg.2 h'.next⟩
  · exact Or.inr ⟨Nat.le_trans h.next hle, hlt⟩

/-- To take a generation from the clock makes a manager later. -/
theorem mint (m : Manager) : Later { m with next := m.next + 1 } m :=
  ⟨Nat.le_succ _, fun _ => Or.inl⟩

/-- To open a generation makes a manager later. -/
theorem openNext (m : Manager) (invalid : List Generation) : (m.openNext invalid).Later m := by
  refine ⟨Nat.le_succ _, fun g hg => ?_⟩
  have hg : g ∈ (m.openTable ++ [(m.next, invalid)]).map (·.1) := hg
  rw [List.map_append, List.mem_append] at hg
  refine hg.imp_right fun hg => ?_
  obtain rfl : g = m.next := by simpa using hg
  exact ⟨Nat.le_refl _, Nat.lt_succ_self _⟩

/-- To close generations makes a manager later. -/
theorem closeAll (m : Manager) (generations : List Generation) :
    (m.closeAll generations).Later m := by
  refine ⟨Nat.le_refl _, fun g hg => Or.inl ?_⟩
  obtain ⟨entry, hentry, rfl⟩ := List.mem_map.mp hg
  exact List.mem_map_of_mem (List.mem_of_mem_filter hentry)

end Manager.Later

/-- The view of a frame that was opened when the clock of the manager showed this or later. -/
structure Visibility.Since (view : Visibility) (m : Manager) : Prop where
  generation : m.next ≤ view.generation
  invalid : ∀ g ∈ view.invalid, g ∈ m.openGenerations ∨ m.next ≤ g

namespace Visibility.Since

variable {view : Visibility} {m later : Manager}

/-- A view taken of a manager is one of every later manager as well. -/
theorem of_later (h : view.Since later) (hlater : later.Later m) : view.Since m := by
  refine ⟨Nat.le_trans hlater.next h.generation, fun g hg => ?_⟩
  rcases h.invalid g hg with hopen | hle
  · exact (hlater.opened g hopen).imp_right And.left
  · exact Or.inr (Nat.le_trans hlater.next hle)

/-- What was taken from the clock before and is closed can be seen. -/
theorem canSee (h : view.Since m) {g : Generation} (htaken : g < m.next)
    (hclosed : g ∉ m.openGenerations) : view.canSee g = true := by
  have hlt : g < view.generation := Nat.lt_of_lt_of_le htaken h.generation
  have hvalid : g ∉ view.invalid := fun hg => by
    rcases h.invalid g hg with hopen | hle
    · exact hclosed hopen
    · exact Nat.not_lt_of_le hle htaken
  simp [Visibility.canSee, hlt, hvalid]

end Visibility.Since

namespace World

variable {u v w : World α} {m : ManagerId} {f : FrameId} {o : ObjectId}

/-! ## What always holds later -/

/-- A world that another one may come to, whatever is asked of it. -/
structure Later (v w : World α) : Prop where
  length_managers : w.managers.length ≤ v.managers.length
  manager : ∀ k, (v.manager k).Later (w.manager k)
  length_frames : w.frames.length ≤ v.frames.length
  stamp : ∀ f < w.frames.length, (v.frame f).stamp = (w.frame f).stamp
  since : ∀ f < v.frames.length, w.frames.length ≤ f →
    (v.frame f).view.Since (w.manager (v.frame f).manager)
  length_objects : w.objects.length ≤ v.objects.length
  object : ∀ o < w.objects.length, (v.object o).manager = (w.object o).manager ∧
    (v.object o).typeName = (w.object o).typeName
  log : ∃ events, v.log = w.log ++ events ∧
    ∀ o, creations events o + (w.object o).announced.toNat = (v.object o).announced.toNat

namespace Later

/-- Nothing happened but to managers and frames, none of which is new. -/
theorem of_objects (hlength : v.managers.length = w.managers.length)
    (hmanager : ∀ k, (v.manager k).Later (w.manager k))
    (hframes : v.frames.length = w.frames.length)
    (hstamp : ∀ f, (v.frame f).stamp = (w.frame f).stamp) (hobjects : v.objects = w.objects)
    (hlog : v.log = w.log) : v.Later w := by
  have hobject (o : ObjectId) : v.object o = w.object o := by
    rw [World.object, hobjects, World.object]
  refine ⟨Nat.le_of_eq hlength.symm, hmanager, Nat.le_of_eq hframes.symm, fun f _ => hstamp f,
    fun f hf hle => ?_, Nat.le_of_eq (congrArg List.length hobjects.symm),
    fun o _ => by simp [hobject], ⟨[], by rw [hlog, List.append_nil], fun o => by simp [hobject]⟩⟩
  exact absurd hf (Nat.not_lt_of_le (hframes ▸ hle))

/-- A world is a later one of itself. -/
theorem refl (w : World α) : w.Later w :=
  of_objects rfl (fun _ => .refl _) rfl (fun _ => rfl) rfl rfl

/-- What is later than a later world is later. -/
theorem trans (h : v.Later w) (h' : u.Later v) : u.Later w := by
  obtain ⟨events, hlog, hcount⟩ := h.log
  obtain ⟨more, hlog', hcount'⟩ := h'.log
  refine ⟨Nat.le_trans h.length_managers h'.length_managers,
    fun k => (h.manager k).trans (h'.manager k), Nat.le_trans h.length_frames h'.length_frames,
    fun f hf => ?_, fun f hf hle => ?_, Nat.le_trans h.length_objects h'.length_objects,
    fun o ho => ?_, ⟨events ++ more, ?_, fun o => ?_⟩⟩
  · exact (h'.stamp f (Nat.lt_of_lt_of_le hf h.length_frames)).trans (h.stamp f hf)
  · by_cases hold : f < v.frames.length
    · obtain ⟨hmanager, hview⟩ := Prod.mk.inj (h'.stamp f hold)
      rw [hview, hmanager]
      exact h.since f hold hle
    · exact (h'.since f hf (Nat.le_of_not_lt hold)).of_later (h.manager _)
  · obtain ⟨hmanager, htype⟩ := h'.object o (Nat.lt_of_lt_of_le ho h.length_objects)
    exact ⟨hmanager.trans (h.object o ho).1, htype.trans (h.object o ho).2⟩
  · rw [hlog', hlog, List.append_assoc]
  · have hfirst := hcount o
    have hsecond := hcount' o
    rw [creations_append]
    omega

/-! ### Primitive changes -/

/-- A world with a manager made later is later. -/
theorem modifyManager (w : World α) (m : ManagerId) {change : Manager → Manager}
    (hchange : ∀ manager, (change manager).Later manager) :
    (w.modifyManager m change).Later w := by
  refine of_objects (length_managers_modifyManager ..) (fun k => ?_) rfl (fun _ => rfl) rfl rfl
  by_cases hk : k = m
  · subst hk
    by_cases hlt : k < w.managers.length
    · rw [manager_modifyManager_of_lt hlt]
      exact hchange _
    · rw [World.modifyManager, List.modify_eq_self (Nat.le_of_not_lt hlt)]
      exact .refl _
  · rw [manager_modifyManager_of_ne hk]
    exact .refl _

/-- To count something makes a world later. -/
theorem count (w : World α) (m : ManagerId) (change : Counters → Counters) :
    (w.count m change).Later w :=
  modifyManager w m fun _ => .of_eq rfl rfl

/-- A frame may be changed in all but its stamp. -/
theorem modifyFrame (w : World α) (f : FrameId) {g : Frame → Frame}
    (hg : ∀ frame, (g frame).stamp = frame.stamp) : (w.modifyFrame f g).Later w := by
  refine of_objects rfl (fun _ => .refl _) (length_frames_modifyFrame ..) (fun h => ?_) rfl rfl
  by_cases hf : f < w.frames.length
  · rw [frame_modifyFrame hf]
    split
    · exact hg _
    · rfl
  · rw [World.modifyFrame, List.modify_eq_self (Nat.le_of_not_lt hf)]

/-- To touch an object makes a world later. -/
theorem touch (w : World α) (f : FrameId) (o : ObjectId) : (w.touch f o).Later w :=
  modifyFrame w f fun frame => by split <;> rfl

/-- The chain of an object may be changed in any way. -/
theorem modifyChain (w : World α) (o : ObjectId) (change : Chain α → Chain α) :
    (w.modifyChain o change).Later w := by
  have hobject (p : ObjectId) : ((w.modifyChain o change).object p).manager = (w.object p).manager ∧
      ((w.modifyChain o change).object p).typeName = (w.object p).typeName ∧
      ((w.modifyChain o change).object p).announced = (w.object p).announced := by
    by_cases ho : o < w.objects.length
    · rw [World.modifyChain, object_modifyObject ho]
      split <;> exact ⟨rfl, rfl, rfl⟩
    · rw [World.modifyChain, World.modifyObject, List.modify_eq_self (Nat.le_of_not_lt ho)]
      exact ⟨rfl, rfl, rfl⟩
  have hlength : (w.modifyChain o change).objects.length = w.objects.length :=
    length_objects_modifyObject w o _
  exact
    { refl w with
      length_objects := Nat.le_of_eq hlength.symm
      object := fun p _ => ⟨(hobject p).1, (hobject p).2.1⟩
      log := ⟨[], (List.append_nil _).symm, fun p => by simp [(hobject p).2.2]⟩ }

/-- To store a value makes a world later. -/
theorem store (w : World α) (o : ObjectId) (g : Generation) (change : α → α) :
    (w.store o g change).Later w :=
  modifyChain w o _

/-- Observers may be told anything but of a creation. -/
theorem tell (w : World α) {event : Event} (hevent : event.created? = none) :
    (w.tell event).Later w :=
  { refl w with
    log := ⟨[event], rfl, fun o => by simp [creations, hevent, World.tell, World.object]⟩ }

/-- Any frame may become current. -/
theorem setCurrent (w : World α) (current : Option FrameId) :
    Later { w with current := current } w :=
  of_objects rfl (fun _ => .refl _) rfl (fun _ => rfl) rfl rfl

/-! ### Managers and frames -/

/-- One more manager makes a world later. -/
theorem addManager (w : World α) (config : Config) : (w.addManager config).Later w := by
  refine { refl w with length_managers := ?_, manager := fun k => ?_ }
  · simp [World.addManager]
  · rcases Nat.lt_trichotomy k w.managers.length with hk | hk | hk
    · rw [World.manager, World.addManager, List.getElem?_append_left hk, ← World.manager]
      exact .refl _
    · subst hk
      have hnone : w.managers[w.managers.length]? = none := List.getElem?_eq_none (Nat.le_refl _)
      simp only [World.manager, World.addManager, hnone, List.getElem?_concat_length]
      exact .of_eq rfl rfl
    · have hnone : w.managers[k]? = none := List.getElem?_eq_none (Nat.le_of_lt hk)
      have hnew : (w.addManager config).managers[k]? = none := by
        refine List.getElem?_eq_none ?_
        rw [World.addManager, List.length_append]
        exact hk
      rw [World.manager, hnew, World.manager, hnone]
      exact .refl _

/-- A frame may be added whose view is of the manager as it is. -/
theorem addFrame (w : World α) {frame : Frame}
    (hview : frame.view.Since (w.manager frame.manager)) :
    Later { w with frames := w.frames ++ [frame] } w := by
  refine { refl w with length_frames := ?_, stamp := fun f hf => ?_, since := fun f hf hle => ?_ }
  · simp
  · rw [World.frame, List.getElem?_append_left hf, World.frame]
  · rw [List.length_append] at hf
    obtain rfl : f = w.frames.length := Nat.le_antisymm (Nat.le_of_lt_succ hf) hle
    have hnew : World.frame { w with frames := w.frames ++ [frame] } w.frames.length = frame := by
      simp [World.frame]
    rw [hnew]
    exact hview

/-- To open a frame makes a world later, also when it is refused. -/
theorem openFrame (w : World α) (m : ManagerId) (options : FrameOptions) :
    (w.openFrame m options).2.Later w := by
  unfold World.openFrame
  dsimp only
  split
  · exact refl w
  · let view : Visibility := .ofFrame (w.manager m).next (w.manager m).openGenerations
    have hview : view.Since (w.manager m) := ⟨Nat.le_refl _, fun _ => Or.inl⟩
    have hadded : Later { w with frames := w.frames ++ [{ manager := m, view, options }] } w :=
      addFrame w hview
    have hopened := hadded.trans (modifyManager _ m fun manager =>
      .openNext manager (w.manager m).openGenerations)
    exact hopened.trans (count _ m fun c => { c with opened := c.opened + 1 })

/-- Closing a frame goes in steps that each make a world later. -/
theorem throughClosing : ThroughClosing fun v w : World α => v.Later w where
  refl := refl
  trans := trans
  count := count
  closeAll w m generations := modifyManager w m fun manager => .closeAll manager generations
  close w f _ _ := modifyFrame w f fun _ => rfl
  discardRecord w o _ := modifyChain w o _
  trimRecords w o _ := modifyChain w o _
  tell w _ _ := tell w rfl

/-- To discard a frame makes a world later. -/
theorem discard (w : World α) (f : FrameId) : (w.discard f).Later w :=
  throughClosing.discard w f

/-- To commit an open frame makes a world later, whether or not it loses. -/
theorem commitActive (w : World α) (f : FrameId) : (w.commitActive f).2.Later w := by
  refine throughClosing.commitActive w f fun merges _ =>
    throughClosing.publishMerges (fun v m g merge => ?_) ..
  have hopened := modifyManager v m fun manager => .openNext manager []
  rw [publishMerge]
  dsimp only
  exact hopened.trans (modifyChain ..)

/-- To commit a frame makes a world later, also when it is refused. -/
theorem commit (w : World α) (f : FrameId) : (w.commit f).2.Later w := by
  rw [World.commit]
  dsimp only
  split
  · exact commitActive w f
  · exact refl w

/-- To hold on to a frame makes a world later. -/
theorem hold (w : World α) (f : FrameId) : (w.hold f).Later w :=
  modifyFrame w f fun _ => rfl

/-- To let go of a frame makes a world later. -/
theorem release (w : World α) (f : FrameId) : (w.release f).Later w := by
  rw [World.release]
  have hreleased := modifyFrame w f
    (g := fun frame => { frame with holders := frame.holders - 1 }) fun _ => rfl
  split
  · exact hreleased.trans (discard _ f)
  · exact hreleased

/-- To enter a frame makes a world later. -/
theorem enterFrame (w : World α) (f : FrameId) : (w.enterFrame f).2.Later w := by
  rw [World.enterFrame]
  split
  · exact refl w
  · exact (hold w f).trans (setCurrent _ (some f))

/-- To leave a frame makes a world later. -/
theorem leaveFrame (w : World α) (f : FrameId) (first : Bool) : (w.leaveFrame f first).Later w :=
  (setCurrent w _).trans (release _ f)

/-! ### Objects -/

/-- An object may be added that has not been announced. -/
theorem addObject (w : World α) {object : Object α} (hannounced : object.announced = false) :
    (w.addObject object).Later w := by
  refine { refl w with
    length_objects := ?_
    object := fun o ho => ?_
    log := ⟨[], (List.append_nil _).symm, fun o => ?_⟩ }
  · simp [World.addObject]
  · rw [object_addObject, if_neg (Nat.ne_of_lt ho)]
    exact ⟨rfl, rfl⟩
  · rw [object_addObject]
    split
    · next ho =>
      rw [hannounced, ho, World.object, List.getElem?_eq_none (Nat.le_refl _)]
      rfl
    · exact Nat.zero_add _

/-- To make an object makes a world later. -/
theorem newObject (w : World α) (m : ManagerId) (typeName : String)
    (merge : α → α → α → Option α) (initial : α) :
    (w.newObject m typeName merge initial).2.Later w := by
  unfold World.newObject
  dsimp only
  split
  · exact (addObject w rfl).trans (touch ..)
  · exact (modifyManager w m fun manager => .mint manager).trans (addObject _ rfl)

/-- An object that was made is announced, the first time. -/
theorem notifyCreated (ho : o < w.objects.length) : (w.notifyCreated o).Later w := by
  cases hannounced : (w.object o).announced with
  | true =>
    rw [World.notifyCreated, hannounced]
    exact refl w
  | false =>
    obtain ⟨event, hevent, heq⟩ := notifyCreated_of_unannounced hannounced
    have hobject (p : ObjectId) : (w.notifyCreated o).object p =
        if p = o then { w.object p with announced := true } else w.object p := by
      rw [heq]
      exact object_modifyObject ho _ p
    have hcounted : ((w.notifyCreated o).managers = ((w.modifyObject o fun object =>
        { object with announced := true }).count (w.object o).manager fun c =>
          { c with created := c.created + 1 }).managers) := by rw [heq]; rfl
    have hmanager := count (w.modifyObject o fun object => { object with announced := true })
      (w.object o).manager fun c => { c with created := c.created + 1 }
    refine { refl w with
      length_managers := ?_
      manager := fun k => ?_
      length_frames := ?_
      stamp := fun f _ => ?_
      since := fun f hf hle => ?_
      length_objects := ?_
      object := fun p _ => ?_
      log := ⟨[event], by rw [heq]; rfl, fun p => ?_⟩ }
    · rw [hcounted]
      exact hmanager.length_managers
    · have hk := hmanager.manager k
      rwa [World.manager, ← hcounted, ← World.manager] at hk
    · rw [heq]
      exact Nat.le_refl _
    · rw [heq]
      rfl
    · rw [heq] at hf
      exact absurd hle (Nat.not_le_of_lt hf)
    · rw [heq]
      exact Nat.le_of_eq (length_objects_modifyObject w o _).symm
    · rw [hobject]
      split <;> exact ⟨rfl, rfl⟩
    · rw [hobject, creations, List.filterMap_cons_some hevent, List.filterMap_nil,
        List.count_singleton]
      by_cases hp : p = o
      · simp [hp, hannounced]
      · simp [hp, Ne.symm hp]

/-- To trim a chain on request makes a world later. -/
theorem collect (w : World α) (m : ManagerId) (o : ObjectId) : (w.collect m o).2.Later w :=
  (modifyChain w o (·.trim (w.manager m).gcView)).trans (count _ m fun c =>
    { c with
      recordsTrimmed := c.recordsTrimmed + (w.object o).chain.trimCount (w.manager m).gcView })

/-! ### Reading and writing -/

/-- To read in a frame makes a world later. -/
theorem readableIn (w : World α) (f : FrameId) (o : ObjectId) :
    (w.running (Store.readableIn f o)).2.Later w := by
  rw [running, readableIn_run]
  cases (w.frame f).isActive with
  | false => exact refl w
  | true =>
    cases w.select? o (w.frame f).view with
    | none => exact refl w
    | some r =>
      cases (w.frame f).options.observed with
      | false => exact refl w
      | true => exact tell w rfl

/-- To read an object makes a world later. -/
theorem readable (w : World α) (o : ObjectId) : (w.running (Store.readable o)).2.Later w := by
  rcases running_readable w o with hsame | htold
  · rw [hsame]
    exact refl w
  · rw [htold]
    exact tell w rfl

/-- To note a write makes a world later. -/
theorem noteWrite (w : World α) (f : FrameId) (o : ObjectId) : (w.noteWrite f o).Later w := by
  rw [World.noteWrite]
  split
  · exact refl w
  · have hwritten := modifyFrame w f
      (g := fun frame => { frame with written := frame.written ++ [o] }) fun _ => rfl
    exact hwritten.trans (touch _ f o)

/-- To find or branch the record to write makes a world later. -/
theorem prepareWrite (w : World α) (f : FrameId) (o : ObjectId) :
    (w.prepareWrite f o).2.Later w := by
  cases hprepare : w.prepareWrite f o with
  | mk result v =>
  cases result with
  | error violation =>
    rcases of_prepareWrite_error hprepare with rfl | rfl
    · exact refl _
    · exact noteWrite w f o
  | ok r =>
    rcases of_prepareWrite hprepare with ⟨-, ⟨-, rfl⟩ | ⟨-, base, -, -, rfl⟩⟩
    · exact noteWrite w f o
    · exact (noteWrite w f o).trans (modifyChain _ o (·.link r))

/-- What the observer does after a first write makes a world later. -/
theorem afterObserver (w : World α) (f : FrameId) (o : ObjectId) :
    (w.afterObserver f o).Later w :=
  throughClosing.afterObserver w f o ((tell w rfl).trans (modifyFrame _ f fun _ => rfl))
    fun v => commitActive v f

/-- A write, and what its observer does, whatever comes of it. -/
theorem running_writableIn (w : World α) (f : FrameId) (o : ObjectId) :
    (w.running (Store.writableIn f o)).2.Later w := by
  have hprepared := prepareWrite w f o
  rw [running, writableIn_run]
  cases hprepare : w.prepareWrite f o with
  | mk result v =>
  rw [hprepare] at hprepared
  cases result with
  | error violation => exact hprepared
  | ok r =>
    dsimp only
    split
    · exact hprepared
    · exact hprepared.trans (afterObserver v f o)

/-- To find the record to write makes a world later. -/
theorem writable (w : World α) (o : ObjectId) : (w.running (Store.writable o)).2.Later w := by
  rw [running, writable_run]
  cases w.current with
  | none => exact refl w
  | some f => exact running_writableIn w f o

/-- To store into the record that was found makes a world later. -/
theorem writing {x : StoreM α (Record α)} (hx : (w.running x).2.Later w) (o : ObjectId)
    (change : α → α) : (w.writing x o change).2.Later w := by
  rw [running] at hx
  rw [World.writing]
  cases hrun : x.run w with
  | error violation v =>
    rw [hrun] at hx
    exact hx
  | ok r v =>
    rw [hrun] at hx
    exact hx.trans (store v o r.generation change)

end Later

/-! ## Requests -/

/-- Every call that is known makes a world later. -/
theorem later_actBy (w : World α) (m : ManagerId) {call : Call α} (hknown : w.knows call = true) :
    (w.actBy m call).2.Later w := by
  cases call with
  | openFrame options => exact .openFrame w m options
  | commit f => exact .commit w f
  | discard f => exact .discard w f
  | hold f => exact .hold w f
  | drop f => exact .release w f
  | enter f => exact .enterFrame w f
  | leave first => exact .leaveFrame w _ first
  | construct typeName merge initial => exact .newObject w m typeName merge initial
  | announce o => exact .notifyCreated (hasObject_iff.mp hknown)
  | read o => exact .readable w o
  | readIn f o => exact .readableIn w f o
  | hasVisibleRecord o => exact .refl w
  | write o change => exact .writing (.writable w o) o change
  | writeIn f o change => exact .writing (.running_writableIn w f o) o change
  | collect o => exact .collect w m o

/-- Every request comes to a later world. -/
theorem later_serve (w : World α) (request : Request α) : (w.serve request).Later w := by
  cases request with
  | addManager config => exact .addManager w config
  | call m call =>
    rw [serve, performBy]
    split
    · next hknown => exact later_actBy w m (Bool.and_eq_true_iff.mp hknown).1
    · exact .refl w

/-! ## What follows -/

namespace Later

/-- Every frame that the manager opens later sees what was taken from its clock before and is
closed. -/
theorem canSee (h : v.Later w) {g : Generation} (htaken : g < (w.manager m).next)
    (hclosed : g ∉ (w.manager m).openGenerations) (hf : f < v.frames.length)
    (hnew : w.frames.length ≤ f) (hmanager : (v.frame f).manager = m) :
    (v.frame f).view.canSee g = true := by
  subst hmanager
  exact (h.since f hf hnew).canSee htaken hclosed

/-- Announced is announced. -/
theorem announced (h : v.Later w) (hannounced : (w.object o).announced = true) :
    (v.object o).announced = true := by
  obtain ⟨events, -, hcount⟩ := h.log
  have ho := hcount o
  rw [hannounced] at ho
  cases hlater : (v.object o).announced with
  | true => rfl
  | false =>
    rw [hlater] at ho
    simp at ho

/-- Of a world that nothing came before: observers were told once of each object that is announced,
and of no others. -/
theorem creations_eq (h : w.Later {}) (o : ObjectId) :
    creations w.log o = (w.object o).announced.toNat := by
  obtain ⟨events, hlog, hcount⟩ := h.log
  have ho := hcount o
  rw [hlog, List.nil_append]
  exact ho

/-- Of a world that nothing came before: what is open was taken from the clock. -/
theorem lt_next (h : w.Later {}) {g : Generation} (hg : g ∈ (w.manager m).openGenerations) :
    g < (w.manager m).next := by
  rcases (h.manager m).opened g hg with hopen | ⟨-, hlt⟩
  · cases hopen
  · exact hlt

end Later

end World

end VersionedObjects.Store
