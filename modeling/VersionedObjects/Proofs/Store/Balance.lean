import Mathlib.Algebra.GroupWithZero.Nat
import VersionedObjects.Proofs.Store.Confinement

/-!
# Balanced books

A manager keeps facts about its frames in several places: the open table with its published copy,
the clock, the counters, and the frames themselves. The books balance when all of these tell the
same. While a commit publishes merged values, their generations stand in the open table beside
those of the frames, and the merged objects are counted before the event reports them; so the
invariant is stated up to both, and each step of closing a frame changes what is outstanding.
-/

namespace VersionedObjects.Store

variable {α : Type}

/-- Trimming keeps only records of the chain. -/
theorem Chain.mem_of_mem_trim {c : Chain α} {view : GcView} {r : Record α}
    (hr : r ∈ (c.trim view).records) : r ∈ c.records := by
  unfold trim at hr
  dsimp only at hr
  split at hr
  · obtain ⟨⟨s, keep⟩, hs, hkeep⟩ := List.mem_filterMap.mp hr
    cases keep with
    | true => exact Option.some.inj hkeep ▸ (List.of_mem_zip hs).1
    | false => cases hkeep
  · exact hr

/-- The merged objects that an event reports for a manager. -/
def Event.merges (m : ManagerId) : Event → Nat
  | .committed k event => if k = m then event.merged.length else 0
  | _ => 0

/-- What a manager notes about its frames. -/
structure Books where
  config : Config
  next : Generation
  openTable : OpenTable
  opened : Nat
  committed : Nat
  discarded : Nat
  merged : Nat

/-- The notes of a manager. -/
def Manager.books (m : Manager) : Books where
  config := m.config
  next := m.next
  openTable := m.openTable
  opened := m.counters.opened
  committed := m.counters.committed
  discarded := m.counters.discarded
  merged := m.counters.merged

/-- What is fixed when a frame is opened. -/
def Frame.stamp (frame : Frame) : ManagerId × Visibility :=
  (frame.manager, frame.view)

/-- A frame goes on as it was: it may have touched more, and written what it touched. -/
structure Frame.GoesOn (later frame : Frame) : Prop where
  stamp_eq : later.stamp = frame.stamp
  state_eq : later.state = frame.state
  touched : frame.touched ⊆ later.touched
  written : ∀ o ∈ later.written, o ∈ frame.written ∨ o ∈ later.touched

namespace Frame.GoesOn

variable {frame later latest : Frame}

/-- A frame goes on from itself. -/
theorem refl (frame : Frame) : frame.GoesOn frame :=
  ⟨rfl, rfl, List.Subset.refl _, fun _ => Or.inl⟩

/-- What goes on from a later frame goes on from the first. -/
theorem trans (h : later.GoesOn frame) (h' : latest.GoesOn later) : latest.GoesOn frame where
  stamp_eq := h'.stamp_eq.trans h.stamp_eq
  state_eq := h'.state_eq.trans h.state_eq
  touched := List.Subset.trans h.touched h'.touched
  written o ho := by
    rcases h'.written o ho with ho | ho
    · exact (h.written o ho).imp_right (h'.touched ·)
    · exact Or.inr ho

end Frame.GoesOn

namespace World

variable {u v w : World α} {m : ManagerId} {minted : List Generation} {pending : Nat}
  {stamps : List (ManagerId × Visibility)}

/-- The open frames of a manager, in the order in which they were opened. -/
def openFrames (w : World α) (m : ManagerId) : List FrameId :=
  (List.range w.frames.length).filter fun f => (w.frame f).manager == m && (w.frame f).isActive

/-- The merged objects that the events so far report for a manager. -/
def reportedMerges (w : World α) (m : ManagerId) : Nat :=
  (w.log.map (Event.merges m)).sum

/-- The clock of an object's manager is past a generation, and an open frame of this generation has
touched the object. -/
def Files (w : World α) (o : ObjectId) (g : Generation) : Prop :=
  g < (w.manager (w.object o).manager).next ∧
    ∀ f ∈ w.openFrames (w.object o).manager, (w.frame f).generation = g → o ∈ (w.frame f).touched

/-- The books balance, but for the generations that a manager holds open for merged values, and for
the merged objects that it has counted and not reported. The frames bear the given stamps. -/
structure BalancedBut (w : World α) (stamps : List (ManagerId × Visibility)) (m : ManagerId)
    (minted : List Generation) (pending : Nat) : Prop where
  stamps_eq : w.frames.map Frame.stamp = stamps
  known : ∀ f < w.frames.length, (w.frame f).manager < w.managers.length
  table_eq : ∀ k, (w.manager k).openTable =
    (w.openFrames k).map (fun f => ((w.frame f).generation, (w.frame f).view.invalid)) ++
      if k = m then minted.map (·, []) else []
  limit : ∀ k, (w.openFrames k).length ≤ (w.manager k).config.maxOpenFrames
  past : ∀ f < w.frames.length,
    (w.frame f).generation < (w.manager (w.frame f).manager).next
  distinct : ∀ f h, f < h → h < w.frames.length → (w.frame f).manager = (w.frame h).manager →
    (w.frame f).generation < (w.frame h).generation
  fresh : ∀ f < w.frames.length, (w.frame f).manager = m → (w.frame f).generation ∉ minted
  written : ∀ f < w.frames.length, (w.frame f).written ⊆ (w.frame f).touched
  files : ∀ o, ∀ r ∈ (w.object o).chain.records, w.Files o r.generation
  opened : ∀ k, (w.manager k).counters.opened =
    (w.manager k).counters.committed + (w.manager k).counters.discarded + (w.openFrames k).length
  merged : ∀ k, (w.manager k).counters.merged =
    w.reportedMerges k + if k = m then pending else 0

/-- The books balance. -/
def Balanced (w : World α) (stamps : List (ManagerId × Visibility)) : Prop :=
  ∀ m, w.BalancedBut stamps m [] 0

/-- The open frames of a manager are those that were opened in it and are not closed. -/
theorem mem_openFrames {f : FrameId} : f ∈ w.openFrames m ↔
    f < w.frames.length ∧ (w.frame f).manager = m ∧ (w.frame f).isActive = true := by
  simp [openFrames]

/-- No open frame is listed twice. -/
theorem nodup_openFrames (w : World α) (m : ManagerId) : (w.openFrames m).Nodup :=
  List.nodup_range.filter _

/-- Frames of the same stamps have them in the same order. -/
theorem map_stamp_eq (hlength : v.frames.length = w.frames.length)
    (hstamp : ∀ f, (v.frame f).stamp = (w.frame f).stamp) :
    v.frames.map Frame.stamp = w.frames.map Frame.stamp := by
  refine List.ext_getElem (by simp [hlength]) fun f hf hf' => ?_
  rw [List.length_map] at hf hf'
  simpa [frame, hf, hf'] using hstamp f

/-- With nothing outstanding it does not matter for which manager. -/
theorem BalancedBut.balanced (hw : w.BalancedBut stamps m [] 0) : w.Balanced stamps := fun k =>
  { hw with
    table_eq := fun j => by rw [hw.table_eq j]; simp
    fresh := fun _ _ _ => List.not_mem_nil
    merged := fun j => by rw [hw.merged j]; simp }

/-- Two frames of one manager and one generation are the same. -/
theorem BalancedBut.eq_of_generation_eq (hw : w.BalancedBut stamps m minted pending)
    {f h : FrameId} (hf : f < w.frames.length) (hh : h < w.frames.length)
    (hmanager : (w.frame f).manager = (w.frame h).manager)
    (heq : (w.frame f).generation = (w.frame h).generation) : f = h := by
  rcases Nat.lt_trichotomy f h with hlt | rfl | hlt
  · exact absurd heq (Nat.ne_of_lt (hw.distinct f h hlt hh hmanager))
  · rfl
  · exact absurd heq.symm (Nat.ne_of_lt (hw.distinct h f hlt hf hmanager.symm))

/-- To change a manager changes that one. -/
theorem manager_modifyManager_of_lt (hm : m < w.managers.length) (f : Manager → Manager) :
    (w.modifyManager m f).manager m = f (w.manager m) := by
  simp [manager, modifyManager, List.getElem?_eq_getElem hm]

/-! ## Changes that the books do not mention -/

/-- From one world to a later one nothing happened that the books mention: frames may have touched
more, and records may be gone or may hold other values. -/
structure SameBooks (v w : World α) : Prop where
  length_managers : v.managers.length = w.managers.length
  books : ∀ k, (v.manager k).books = (w.manager k).books
  length_frames : v.frames.length = w.frames.length
  frames : ∀ f, (v.frame f).GoesOn (w.frame f)
  objects : ∀ o, (v.object o).manager = (w.object o).manager ∧
    ∀ r ∈ (v.object o).chain.records, ∃ s ∈ (w.object o).chain.records,
      s.generation = r.generation
  reported : ∀ k, v.reportedMerges k = w.reportedMerges k

namespace SameBooks

/-- The books are the same where nothing happens. -/
theorem refl (w : World α) : w.SameBooks w where
  length_managers := rfl
  books _ := rfl
  length_frames := rfl
  frames _ := .refl _
  objects _ := ⟨rfl, fun r hr => ⟨r, hr, rfl⟩⟩
  reported _ := rfl

/-- Two steps that the books do not mention are none together. -/
theorem trans (h : v.SameBooks w) (h' : u.SameBooks v) : u.SameBooks w where
  length_managers := h'.length_managers.trans h.length_managers
  books k := (h'.books k).trans (h.books k)
  length_frames := h'.length_frames.trans h.length_frames
  frames f := (h.frames f).trans (h'.frames f)
  objects o := by
    obtain ⟨howner, hrecords⟩ := h.objects o
    obtain ⟨howner', hrecords'⟩ := h'.objects o
    refine ⟨howner'.trans howner, fun r hr => ?_⟩
    obtain ⟨s, hs, hgen⟩ := hrecords' r hr
    obtain ⟨t, ht, hgen'⟩ := hrecords s hs
    exact ⟨t, ht, hgen'.trans hgen⟩
  reported k := (h'.reported k).trans (h.reported k)

/-- A counter that no frame is counted in may change. -/
theorem count (w : World α) (m : ManagerId) {change : Counters → Counters}
    (hchange : ∀ c, (change c).opened = c.opened ∧ (change c).committed = c.committed ∧
      (change c).discarded = c.discarded ∧ (change c).merged = c.merged) :
    (w.count m change).SameBooks w :=
  { refl w with
    length_managers := length_managers_modifyManager ..
    books := fun k => manager_modifyManager_of_eq Manager.books (fun manager => by
      obtain ⟨hopened, hcommitted, hdiscarded, hmerged⟩ := hchange manager.counters
      simp only [Manager.books, hopened, hcommitted, hdiscarded, hmerged]) w m k }

/-- Observers may be told what no manager has merged. -/
theorem tell (w : World α) {event : Event} (hevent : ∀ k, event.merges k = 0) :
    (w.tell event).SameBooks w :=
  { refl w with reported := fun k => by simp [reportedMerges, World.tell, hevent] }

/-- The books do not say which frame is current. -/
theorem setCurrent (w : World α) (current : Option FrameId) :
    SameBooks { w with current := current } w :=
  { refl w with }

/-- A frame may be changed into one that goes on from it. -/
theorem modifyFrame (w : World α) (f : FrameId) {g : Frame → Frame}
    (hg : f < w.frames.length → (g (w.frame f)).GoesOn (w.frame f)) :
    (w.modifyFrame f g).SameBooks w :=
  { refl w with
    length_frames := length_frames_modifyFrame ..
    frames := fun h => by
      by_cases hf : f < w.frames.length
      · rw [frame_modifyFrame hf]
        split
        · next heq => exact heq ▸ hg hf
        · exact .refl _
      · rw [World.modifyFrame, List.modify_eq_self (Nat.le_of_not_lt hf)]
        exact .refl _ }

/-- An object may change in what its manager does not note. -/
theorem modifyObject (w : World α) (o : ObjectId) {g : Object α → Object α}
    (hg : ∀ object, (g object).manager = object.manager ∧
      ∀ r ∈ (g object).chain.records, ∃ s ∈ object.chain.records, s.generation = r.generation) :
    (w.modifyObject o g).SameBooks w :=
  { refl w with
    objects := fun p => by
      by_cases ho : o < w.objects.length
      · rw [object_modifyObject ho]
        split
        · exact hg _
        · exact ⟨rfl, fun r hr => ⟨r, hr, rfl⟩⟩
      · rw [World.modifyObject, List.modify_eq_self (Nat.le_of_not_lt ho)]
        exact ⟨rfl, fun r hr => ⟨r, hr, rfl⟩⟩ }

/-- The chain of an object may be changed by what brings no new generation. -/
theorem modifyChain (w : World α) (o : ObjectId) {f : Chain α → Chain α}
    (hf : ∀ c : Chain α, ∀ r ∈ (f c).records, ∃ s ∈ c.records, s.generation = r.generation) :
    (w.modifyChain o f).SameBooks w :=
  modifyObject w o fun _ => ⟨rfl, hf _⟩

/-- What a frame touches is not in the books. -/
theorem touch (w : World α) (f : FrameId) (o : ObjectId) : (w.touch f o).SameBooks w := by
  refine modifyFrame w f fun _ => ?_
  split
  · exact .refl _
  · exact ⟨rfl, rfl, List.subset_append_left _ _, fun _ => Or.inl⟩

/-- Changing objects in order is of no concern if each change is. -/
theorem foldl {change : World α → ObjectId → World α}
    (hchange : ∀ (v : World α) (o : ObjectId), (change v o).SameBooks v) (w : World α)
    (objects : List ObjectId) : (objects.foldl change w).SameBooks w := by
  induction objects generalizing w with
  | nil => exact refl w
  | cons o rest ih => exact (hchange w o).trans (ih (change w o))

/-- The same frames are open. -/
theorem openFrames_eq (h : v.SameBooks w) (k : ManagerId) : v.openFrames k = w.openFrames k := by
  rw [openFrames, openFrames, h.length_frames]
  refine List.filter_congr fun f _ => ?_
  rw [show (v.frame f).manager = (w.frame f).manager from congrArg Prod.fst (h.frames f).stamp_eq,
    Frame.isActive, Frame.isActive, (h.frames f).state_eq]

/-- The clock has not run where the books are the same. -/
theorem next_eq (h : v.SameBooks w) (k : ManagerId) : (v.manager k).next = (w.manager k).next :=
  congrArg Books.next (h.books k)

/-- What is on file stays there. -/
theorem files (h : v.SameBooks w) {o : ObjectId} {g : Generation} (hfiles : w.Files o g) :
    v.Files o g := by
  obtain ⟨hpast, htouched⟩ := hfiles
  rw [Files, (h.objects o).1, h.openFrames_eq, h.next_eq]
  refine ⟨hpast, fun f hf hgen => (h.frames f).touched (htouched f hf ?_)⟩
  rw [← hgen]
  exact congrArg (·.2.generation) (h.frames f).stamp_eq.symm

end SameBooks

namespace BalancedBut

/-- Changes that the books do not mention leave them balanced. -/
theorem of_same (hw : w.BalancedBut stamps m minted pending) (h : v.SameBooks w) :
    v.BalancedBut stamps m minted pending := by
  have hmanager (f : FrameId) : (v.frame f).manager = (w.frame f).manager :=
    congrArg Prod.fst (h.frames f).stamp_eq
  have hview (f : FrameId) : (v.frame f).view = (w.frame f).view :=
    congrArg Prod.snd (h.frames f).stamp_eq
  have hgen (f : FrameId) : (v.frame f).generation = (w.frame f).generation :=
    congrArg Visibility.generation (hview f)
  have hstamps := map_stamp_eq h.length_frames fun f => (h.frames f).stamp_eq
  have hcounters (k : ManagerId) : (v.manager k).counters.opened = (w.manager k).counters.opened ∧
      (v.manager k).counters.committed = (w.manager k).counters.committed ∧
      (v.manager k).counters.discarded = (w.manager k).counters.discarded ∧
      (v.manager k).counters.merged = (w.manager k).counters.merged :=
    ⟨congrArg Books.opened (h.books k), congrArg Books.committed (h.books k),
      congrArg Books.discarded (h.books k), congrArg Books.merged (h.books k)⟩
  refine ⟨hstamps.trans hw.stamps_eq, fun f hf => ?_, fun k => ?_, fun k => ?_, fun f hf => ?_,
    fun f j hlt hj => ?_, fun f hf => ?_, fun f hf o ho => ?_, fun o r hr => ?_, fun k => ?_,
    fun k => ?_⟩
  · rw [hmanager, h.length_managers]
    exact hw.known f (h.length_frames ▸ hf)
  · rw [h.openFrames_eq]
    simp only [hgen, hview]
    exact (congrArg Books.openTable (h.books k)).trans (hw.table_eq k)
  · rw [h.openFrames_eq, show (v.manager k).config = (w.manager k).config from
      congrArg Books.config (h.books k)]
    exact hw.limit k
  · rw [hgen, hmanager, h.next_eq]
    exact hw.past f (h.length_frames ▸ hf)
  · rw [hmanager, hmanager, hgen, hgen]
    exact hw.distinct f j hlt (h.length_frames ▸ hj)
  · rw [hmanager, hgen]
    exact hw.fresh f (h.length_frames ▸ hf)
  · rcases (h.frames f).written o ho with ho | ho
    · exact (h.frames f).touched (hw.written f (h.length_frames ▸ hf) ho)
    · exact ho
  · obtain ⟨s, hs, hgen⟩ := (h.objects o).2 r hr
    exact hgen ▸ h.files (hw.files o s hs)
  · obtain ⟨hopened, hcommitted, hdiscarded, -⟩ := hcounters k
    rw [hopened, hcommitted, hdiscarded, h.openFrames_eq]
    exact hw.opened k
  · obtain ⟨-, -, -, hmerged⟩ := hcounters k
    rw [hmerged, h.reported]
    exact hw.merged k

/-! ## Records -/

/-- A chain may have any records that are on file. -/
theorem modifyChain (hw : w.BalancedBut stamps m minted pending) (o : ObjectId)
    {f : Chain α → Chain α}
    (hf : ∀ r ∈ (f (w.object o).chain).records, w.Files o r.generation) :
    (w.modifyChain o f).BalancedBut stamps m minted pending := by
  by_cases ho : o < w.objects.length
  · refine { hw with files := fun p r hr => ?_ }
    have howner : ((w.modifyChain o f).object p).manager = (w.object p).manager := by
      rw [World.modifyChain, object_modifyObject ho]
      split <;> rfl
    have hfiles : w.Files p r.generation := by
      rw [World.modifyChain, object_modifyObject ho] at hr
      split at hr
      · next heq => exact heq ▸ hf r (heq ▸ hr)
      · exact hw.files p r hr
    rw [Files, howner]
    exact hfiles
  · rw [World.modifyChain, World.modifyObject, List.modify_eq_self (Nat.le_of_not_lt ho)]
    exact hw

/-- Of the open frames of a manager only one has its generation. -/
theorem touched_of_generation_eq (hw : w.BalancedBut stamps m minted pending) {k : ManagerId}
    {f : FrameId} {o : ObjectId} (hf : f ∈ w.openFrames k) (htouched : o ∈ (w.frame f).touched) :
    (w.frame f).generation < (w.manager k).next ∧
      ∀ h ∈ w.openFrames k, (w.frame h).generation = (w.frame f).generation →
        o ∈ (w.frame h).touched := by
  obtain ⟨hlt, hmanager, -⟩ := mem_openFrames.mp hf
  refine ⟨hmanager ▸ hw.past f hlt, fun h hh hgen => ?_⟩
  obtain ⟨hlt', hmanager', -⟩ := mem_openFrames.mp hh
  obtain rfl := hw.eq_of_generation_eq hlt' hlt (hmanager'.trans hmanager.symm) hgen
  exact htouched

/-- No frame has a generation that is still to be taken from the clock. -/
theorem generation_ne_next (hw : w.BalancedBut stamps m minted pending) {k : ManagerId}
    {f : FrameId} (hf : f ∈ w.openFrames k) : (w.frame f).generation ≠ (w.manager k).next := by
  obtain ⟨hlt, rfl, -⟩ := mem_openFrames.mp hf
  exact Nat.ne_of_lt (hw.past f hlt)

/-- An open frame links a record of an object that it has touched. -/
theorem link (hw : w.BalancedBut stamps m minted pending) {f : FrameId} {o : ObjectId}
    (hf : f ∈ w.openFrames (w.object o).manager) (htouched : o ∈ (w.frame f).touched)
    {r : Record α} (hgen : r.generation = (w.frame f).generation) :
    (w.modifyChain o (·.link r)).BalancedBut stamps m minted pending := by
  refine hw.modifyChain o fun s hs => ?_
  rcases Chain.eq_or_mem_of_mem_link hs with rfl | hs
  · rw [hgen]
    exact hw.touched_of_generation_eq hf htouched
  · exact hw.files o s hs

/-- An object is made with records that will be on file. -/
theorem addObject (hw : w.BalancedBut stamps m minted pending) {object : Object α}
    (hrecords : ∀ r ∈ object.chain.records, r.generation < (w.manager object.manager).next ∧
      ∀ f ∈ w.openFrames object.manager, (w.frame f).generation = r.generation →
        w.objects.length ∈ (w.frame f).touched) :
    (w.addObject object).BalancedBut stamps m minted pending := by
  refine { hw with files := fun o r hr => ?_ }
  rw [Files, object_addObject] at *
  split at hr
  · next heq =>
    rw [if_pos heq, heq]
    exact hrecords r hr
  · next hne =>
    rw [if_neg hne]
    exact hw.files o r hr

/-! ## Minting -/

/-- A manager takes generations from its clock, and holds some of them open for merged values. -/
theorem modifyManager (hw : w.BalancedBut stamps m minted pending) (hm : m < w.managers.length)
    {change : Manager → Manager} {more : List Generation}
    (hconfig : (change (w.manager m)).config = (w.manager m).config)
    (hnext : (w.manager m).next ≤ (change (w.manager m)).next)
    (htable : (change (w.manager m)).openTable = (w.manager m).openTable ++ more.map (·, []))
    (hcounters : (change (w.manager m)).counters = (w.manager m).counters)
    (hmore : ∀ g ∈ more, (w.manager m).next ≤ g) :
    (w.modifyManager m change).BalancedBut stamps m (minted ++ more) pending := by
  have hself : (w.modifyManager m change).manager m = change (w.manager m) :=
    manager_modifyManager_of_lt hm change
  have hother {k : ManagerId} (hk : k ≠ m) : (w.modifyManager m change).manager k = w.manager k :=
    manager_modifyManager_of_ne hk w change
  have hle (k : ManagerId) : (w.manager k).next ≤ ((w.modifyManager m change).manager k).next := by
    by_cases hk : k = m
    · rw [hk, hself]
      exact hnext
    · exact Nat.le_of_eq (congrArg Manager.next (hother hk)).symm
  refine ⟨hw.stamps_eq, fun f hf => ?_, fun k => ?_, fun k => ?_, fun f hf => ?_, hw.distinct,
    fun f hf hmanager => ?_, hw.written, fun o r hr => ?_, fun k => ?_, fun k => ?_⟩
  · rw [length_managers_modifyManager]
    exact hw.known f hf
  · by_cases hk : k = m
    · subst hk
      rw [hself, htable, hw.table_eq k, if_pos rfl, if_pos rfl, List.map_append, List.append_assoc]
      rfl
    · rw [hother hk, hw.table_eq k, if_neg hk, if_neg hk]
      rfl
  · by_cases hk : k = m
    · subst hk
      rw [hself, hconfig]
      exact hw.limit k
    · rw [hother hk]
      exact hw.limit k
  · exact Nat.lt_of_lt_of_le (hw.past f hf) (hle _)
  · rw [List.mem_append, not_or]
    refine ⟨hw.fresh f hf hmanager, fun hmem => ?_⟩
    have hpast : (w.frame f).generation < (w.manager m).next := hmanager ▸ hw.past f hf
    exact Nat.not_lt_of_le (hmore _ hmem) hpast
  · obtain ⟨hpast, htouched⟩ := hw.files o r hr
    exact ⟨Nat.lt_of_lt_of_le hpast (hle _), htouched⟩
  · by_cases hk : k = m
    · subst hk
      rw [hself, hcounters]
      exact hw.opened k
    · rw [hother hk]
      exact hw.opened k
  · by_cases hk : k = m
    · subst hk
      rw [hself, hcounters]
      exact hw.merged k
    · rw [hother hk]
      exact hw.merged k

/-- The generation of a merged value is open beside those of the frames. -/
theorem publishMerge (hw : w.BalancedBut stamps m minted 0) (hm : m < w.managers.length)
    (g : Generation) {merge : PendingMerge α} (howner : (w.object merge.object).manager = m) :
    (w.publishMerge m g merge).2.BalancedBut stamps m (minted ++ [(w.manager m).next]) 0 := by
  have hopened : (w.modifyManager m (·.openNext [])).BalancedBut stamps m
      (minted ++ [(w.manager m).next]) 0 :=
    hw.modifyManager hm rfl (Nat.le_succ _) rfl rfl fun g hg =>
      Nat.le_of_eq (List.mem_singleton.mp hg).symm
  dsimp only [World.publishMerge]
  refine hopened.modifyChain merge.object fun r hr => ?_
  rcases Chain.eq_or_mem_of_mem_link hr with rfl | hr
  · -- No frame has the generation that was only just taken from the clock.
    have hself := manager_modifyManager_of_lt hm (·.openNext [])
    have howner' : ((w.modifyManager m (·.openNext [])).object merge.object).manager = m := howner
    rw [Files, howner', hself]
    refine ⟨Nat.lt_succ_self _, fun f hf hgen => ?_⟩
    have hf : f ∈ w.openFrames m := hf
    exact absurd hgen (hw.generation_ne_next hf)
  · exact hopened.files _ r (Chain.mem_of_mem_unlink hr)

/-- The generations of all merged values are open beside those of the frames. -/
theorem publishMerges (hw : w.BalancedBut stamps m minted 0) (hm : m < w.managers.length)
    (g : Generation) {merges : List (PendingMerge α)}
    (howns : ∀ merge ∈ merges, (w.object merge.object).manager = m) :
    (w.publishMerges m g merges).2.BalancedBut stamps m
      (minted ++ (w.publishMerges m g merges).1) 0 := by
  induction merges generalizing w minted with
  | nil => simpa [World.publishMerges] using hw
  | cons merge rest ih =>
    have hfirst := hw.publishMerge hm g (howns merge List.mem_cons_self)
    have hout := w.outline_publishMerge m g merge
    have howner (o : ObjectId) :
        ((w.publishMerge m g merge).2.object o).manager = (w.object o).manager :=
      (object_of_identities (congrArg Outline.identities hout) o).1
    have hlength : (w.publishMerge m g merge).2.managers.length = w.managers.length :=
      congrArg Outline.managers hout
    have hrest := ih hfirst (hlength.symm ▸ hm) fun other hother =>
      (howner _).trans (howns other (List.mem_cons_of_mem _ hother))
    rw [List.append_assoc] at hrest
    exact hrest

end BalancedBut

end World

end VersionedObjects.Store
