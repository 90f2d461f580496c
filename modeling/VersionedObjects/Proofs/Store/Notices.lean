import VersionedObjects.Proofs.Store.LaterWorlds

/-!
# Notices of new objects

Objects are made one after the other, and observers are told of each before the next one is made.
Until something else than the code that makes them reaches an object, its chain is the one record
that it was made with: the record of a frame that is written again, discarded, committed or trimmed
stays as the only one. So the notice of an object bears the generation that its object was made in.
Main statements: `Raises.newObject`, `Raises.announce` and `Raises.writable`.
-/

namespace VersionedObjects.Store

variable {α : Type}

/-! ## Chains of one record -/

/-- The chain is one record, of the generation. -/
def Chain.Single (c : Chain α) (g : Generation) : Prop :=
  ∃ r, c.records = [r] ∧ r.generation = g

namespace Chain.Single

variable {c : Chain α} {g : Generation}

/-- A chain of one record has its generation only. -/
theorem generations (h : c.Single g) : c.generations = [g] := by
  obtain ⟨r, hrecords, rfl⟩ := h
  simp [Chain.generations, hrecords]

/-- The first record of a chain of one record is that record. -/
theorem first? (h : c.Single g) : (c.first?.map (·.generation)).getD 0 = g := by
  obtain ⟨r, hrecords, rfl⟩ := h
  simp [Chain.first?, hrecords]

/-- Of one record a change that keeps generations leaves one. -/
theorem modify (h : c.Single g) (k : Generation) {change : Record α → Record α}
    (hchange : ∀ r, (change r).generation = r.generation) : (c.modify k change).Single g := by
  obtain ⟨r, hrecords, rfl⟩ := h
  refine ⟨if r.generation = k then change r else r, by simp [Chain.modify, hrecords], ?_⟩
  split
  · exact hchange r
  · rfl

/-- The only record is not taken out. -/
theorem discard (h : c.Single g) (k : Generation) : (c.discard k).Single g := by
  have hlast : c.canUnlink k = false := by
    obtain ⟨r, hrecords, -⟩ := h
    simp [canUnlink, size, hrecords]
  rw [Chain.discard, hlast]
  exact h.modify k fun _ => rfl

/-- A chain of which nothing would stay is left as it is. -/
theorem trim (h : c.Single g) (view : GcView) : (c.trim view).Single g := by
  obtain ⟨r, hrecords, hgeneration⟩ := h
  refine ⟨r, ?_, hgeneration⟩
  obtain ⟨keep, hmask⟩ : ∃ keep, view.retainMask c.entries = [keep] := by
    simp [GcView.retainMask, entries, hrecords]
  rw [Chain.trim, hmask]
  cases keep with
  | true => simp [marked, hrecords]
  | false => simp [hrecords]

/-- The one record of a chain is found by its generation. -/
theorem find? (h : c.Single g) : (c.find? g).isSome = true := by
  obtain ⟨r, hrecords, hgeneration⟩ := h
  simp [Chain.find?, hrecords, hgeneration]

/-- Nothing was committed beside the only record. -/
theorem checkCommit {object : Object α} (h : object.chain.Single g) (view : Visibility)
    (isOpen : Generation → Bool) : object.checkCommit view isOpen = .clean := by
  obtain ⟨r, hrecords, -⟩ := h
  unfold Object.checkCommit
  by_cases hown : r.generation = view.generation
  · simp [Chain.find?, newest?, hrecords, hown]
  · simp [Chain.find?, hrecords, hown]

end Chain.Single

namespace World

variable {u v w : World α} {f : FrameId} {o p : ObjectId} {m : ManagerId} {g : Generation}

/-! ## What keeps an object at one record -/

/-- A change of a chain leaves the other objects alone. -/
theorem object_modifyChain_of_ne (h : p ≠ o) (w : World α) (change : Chain α → Chain α) :
    (w.modifyChain o change).object p = w.object p := by
  simp [object, modifyChain, modifyObject, h.symm]

/-- An object with one record in the one world has one of the same generation in the other. -/
def KeepsSingle (v w : World α) : Prop :=
  ∀ o g, (w.object o).chain.Single g → (v.object o).chain.Single g

namespace KeepsSingle

/-- Objects that keep their one record twice keep it. -/
theorem trans (h : v.KeepsSingle w) (h' : u.KeepsSingle v) : u.KeepsSingle w :=
  fun o g hsingle => h' o g (h o g hsingle)

/-- Where objects are the same they keep their one record. -/
theorem of_objects (h : v.objects = w.objects) : v.KeepsSingle w := by
  intro o g hsingle
  rwa [object, h, ← object]

/-- The chain of an object may be changed by what keeps one record. -/
theorem modifyChain (w : World α) (o : ObjectId) {change : Chain α → Chain α}
    (hchange : ∀ (c : Chain α) (g : Generation), c.Single g → (change c).Single g) :
    (w.modifyChain o change).KeepsSingle w := by
  intro p g hsingle
  by_cases ho : o < w.objects.length
  · rw [World.modifyChain, object_modifyObject ho]
    split
    · exact hchange _ g hsingle
    · exact hsingle
  · rwa [World.modifyChain, World.modifyObject, List.modify_eq_self (Nat.le_of_not_lt ho)]

/-- To store a value keeps one record. -/
theorem store (w : World α) (o : ObjectId) (g : Generation) (change : α → α) :
    (w.store o g change).KeepsSingle w :=
  modifyChain w o fun _ _ hsingle => hsingle.modify g fun _ => rfl

/-- Closing a frame goes in steps that keep the one record of every object. -/
theorem throughClosing : ThroughClosing fun v w : World α => v.KeepsSingle w where
  refl _ := of_objects rfl
  trans := trans
  count _ _ _ := of_objects rfl
  closeAll _ _ _ := of_objects rfl
  close _ _ _ _ := of_objects rfl
  discardRecord w o g := modifyChain w o fun _ _ hsingle => hsingle.discard g
  trimRecords w o view := modifyChain w o fun _ _ hsingle => hsingle.trim view
  tell _ _ _ := of_objects rfl

/-- A value is merged only into a chain of several records. -/
theorem publishMerges (w : World α) (m : ManagerId) (g : Generation)
    {merges : List (PendingMerge α)}
    (hmerges : ∀ merge ∈ merges, ∀ k, ¬ (w.object merge.object).chain.Single k) :
    (w.publishMerges m g merges).2.KeepsSingle w := by
  -- Merging makes no chain of several records one of a single record that is looked at later.
  suffices h : ∀ v : World α, v.KeepsSingle w →
      (∀ merge ∈ merges, ∀ o k, (w.object o).chain.Single k → merge.object ≠ o) →
      (v.publishMerges m g merges).2.KeepsSingle w from
    h w (of_objects rfl) fun merge hmerge o k hsingle hsame =>
      hmerges merge hmerge k (hsame ▸ hsingle)
  clear hmerges
  intro v hv hmerges
  induction merges generalizing v with
  | nil => exact hv
  | cons merge rest ih =>
    rw [List.forall_mem_cons] at hmerges
    refine ih (v.publishMerge m g merge).2 (fun o k hsingle => ?_) hmerges.2
    have hother : o ≠ merge.object := Ne.symm (hmerges.1 o k hsingle)
    have hsame : (v.publishMerge m g merge).2.object o = v.object o :=
      object_modifyChain_of_ne hother (v.modifyManager m (·.openNext [])) _
    rw [hsame]
    exact hv o k hsingle

/-- To commit a frame keeps the one record of an object, under a generation that need not change. -/
theorem commitActive (w : World α) (f : FrameId) : (w.commitActive f).2.KeepsSingle w := by
  refine throughClosing.commitActive w f fun merges hcheck =>
    publishMerges w _ _ fun merge hmerge k hsingle => ?_
  have hmerged := ((of_checkTouched_ok hcheck).2.2 merge).mp hmerge
  rw [hsingle.checkCommit] at hmerged
  cases hmerged.2

/-- What the observer does keeps the one record of an object. -/
theorem afterObserver (w : World α) (f : FrameId) (o : ObjectId) :
    (w.afterObserver f o).KeepsSingle w :=
  throughClosing.afterObserver w f o (of_objects rfl) fun v => commitActive v f

/-- A frame that has its record does not branch another one. -/
theorem prepareWrite (w : World α) (f : FrameId) (o : ObjectId)
    (hown : (w.frame f).isActive = true → (w.frame f).options.readOnly = false →
      (w.frame f).manager = (w.object o).manager →
      ((w.object o).chain.find? (w.frame f).generation).isSome = true) :
    (w.prepareWrite f o).2.KeepsSingle w := by
  have hnoted : (w.noteWrite f o).KeepsSingle w := by
    intro p g hsingle
    rwa [object_noteWrite]
  unfold World.prepareWrite
  dsimp only
  split
  · exact of_objects rfl
  split
  · exact of_objects rfl
  split
  · exact of_objects rfl
  next hactive hreadOnly hmanager =>
  split
  · exact hnoted
  · next hnone =>
    rw [hnone] at hown
    have hsome := hown (by simpa using hactive) (by simpa using hreadOnly) (by simpa using hmanager)
    cases hsome

/-- An object that is written has its record where it can be written. -/
theorem writable (w : World α) (o : ObjectId)
    (hown : ∀ f, w.makingFrame? (w.object o).manager = some f →
      ((w.object o).chain.find? (w.frame f).generation).isSome = true) :
    (w.running (Store.writable o)).2.KeepsSingle w := by
  rw [running, writable_run]
  cases hcurrent : w.current with
  | none => exact of_objects rfl
  | some f =>
    have hprepared := prepareWrite w f o fun hactive hreadOnly hmanager =>
      hown f (by simp [makingFrame?, currentFrameOf?, hcurrent, hactive, hreadOnly, hmanager])
    dsimp only
    rw [writableIn_run]
    cases hprepare : w.prepareWrite f o with
    | mk result v =>
    rw [hprepare] at hprepared
    cases result with
    | error violation => exact hprepared
    | ok r =>
      dsimp only
      split
      · exact hprepared
      · exact hprepared.trans (afterObserver v f o)

end KeepsSingle

/-! ## Objects and their notices -/

/-- The notices of objects that were made one after the other, given the first of them. -/
def announcements (m : ManagerId) (first : ObjectId) (made : List (String × Generation)) :
    List Event :=
  (made.zipIdx first).map fun entry => .created m entry.2 entry.1.1 entry.1.2

/-- The notice of one more object comes last. -/
theorem announcements_concat (m : ManagerId) (first : ObjectId) (made : List (String × Generation))
    (typeName : String) (g : Generation) : announcements m first (made ++ [(typeName, g)]) =
      announcements m first made ++ [.created m (first + made.length) typeName g] := by
  simp [announcements, List.zipIdx_append]

/-- There is one notice for every object. -/
@[simp] theorem length_announcements (m : ManagerId) (first : ObjectId)
    (made : List (String × Generation)) :
    (announcements m first made).length = made.length := by
  simp [announcements]

/-- The generation in which an object is made: that of the open writable frame of the manager that
is entered, or if there is none the next one of the clock. -/
def stampFor (w : World α) (m : ManagerId) : Generation :=
  (w.makingFrame? m).elim (w.manager m).next fun f => (w.frame f).generation

/-- The generations in which objects are made: that of the frame for new objects as long as it is
open, and then new ones from the clock, which are never open. -/
structure Stamps (v w : World α) (m : ManagerId) (entered minted : List Generation) : Prop where
  of_entered : ∀ g ∈ entered, ∃ f, w.makingFrame? m = some f ∧ (w.frame f).generation = g
  of_minted : ∀ g ∈ minted, (w.manager m).next ≤ g ∧ g < (v.manager m).next ∧
    g ∉ (v.manager m).openGenerations
  ascending : minted.Pairwise (· < ·)
  closed : (v.makingFrame? m).isSome = true → minted = []
  first : (w.makingFrame? m).isSome = true → minted ≠ [] → entered ≠ []

namespace Stamps

variable {entered minted : List Generation}

/-- In a later world generations are taken from the same places, if the frame for new objects is the
same. -/
theorem of_later (h : v.Stamps w m entered minted) (hlater : u.Later v)
    (hmaking : (u.makingFrame? m).isSome = true → (v.makingFrame? m).isSome = true) :
    u.Stamps w m entered minted := by
  refine { h with of_minted := fun g hg => ?_, closed := fun hu => h.closed (hmaking hu) }
  obtain ⟨hle, hlt, hclosed⟩ := h.of_minted g hg
  obtain ⟨hnext, hopened⟩ := hlater.manager m
  refine ⟨hle, Nat.lt_of_lt_of_le hlt hnext, fun hopen => ?_⟩
  rcases hopened g hopen with hopen | ⟨hnew, -⟩
  · exact hclosed hopen
  · exact Nat.not_lt_of_le hnew hlt

/-- One more object is made in the frame for new ones. -/
theorem enter (h : v.Stamps w m entered []) (hmaking : w.makingFrame? m = some f) :
    v.Stamps w m (entered ++ [(w.frame f).generation]) [] where
  of_entered := List.forall_mem_append.mpr
    ⟨h.of_entered, List.forall_mem_singleton.mpr ⟨f, hmaking, rfl⟩⟩
  of_minted := nofun
  ascending := List.Pairwise.nil
  closed _ := rfl
  first _ hnil := absurd rfl hnil

/-- One more object is made outside of the frame for new ones, in a generation of its own. -/
theorem mint (h : v.Stamps w m entered minted) (hlater : v.Later w)
    (hopen : ∀ g ∈ (v.manager m).openGenerations, g < (v.manager m).next)
    (hm : m < v.managers.length) (hclosed : v.makingFrame? m = none)
    (hfirst : entered = [] → minted = [] → w.makingFrame? m = none) :
    (v.mint m).2.Stamps w m entered (minted ++ [(v.manager m).next]) := by
  have hminted : (v.mint m).2.Later v := .modifyManager v m fun manager => .mint manager
  have hself : (v.mint m).2.manager m = { v.manager m with next := (v.manager m).next + 1 } :=
    manager_modifyManager_of_lt hm _
  have hmaking : (v.mint m).2.makingFrame? m = v.makingFrame? m := rfl
  have hnext := h.of_later hminted fun hu => hmaking ▸ hu
  refine ⟨h.of_entered, List.forall_mem_append.mpr ⟨hnext.of_minted, ?_⟩, ?_, fun hu => ?_,
    fun hw _ hnone => ?_⟩
  · refine List.forall_mem_singleton.mpr ⟨(hlater.manager m).next, ?_, fun hmem => ?_⟩
    · rw [hself]
      exact Nat.lt_succ_self _
    · rw [hself] at hmem
      exact Nat.lt_irrefl _ (hopen _ hmem)
  · refine List.pairwise_append.mpr
      ⟨h.ascending, List.pairwise_singleton _ _, fun g hg k hk => ?_⟩
    rw [List.mem_singleton.mp hk]
    exact (h.of_minted g hg).2.1
  · rw [hmaking, hclosed] at hu
    cases hu
  · by_cases hnil : minted = []
    · rw [hfirst hnone hnil] at hw
      cases hw
    · exact h.first hw hnil hnone

end Stamps

/-- From one world to a later one objects of certain types were made in the manager, in certain
generations, and each still has the one record that it was made with. Observers were told of them in
this order, of each once, and of no other object: of all of them, or of all but the last, and of so
many at least. -/
structure Raises (v w : World α) (m : ManagerId) (made : List (String × Generation))
    (least : Nat) : Prop where
  makes : v.Makes w m made.length []
  later : v.Later w
  object : ∀ k (hk : k < made.length),
    (v.object (w.objects.length + k)).typeName = made[k].1 ∧
      (v.object (w.objects.length + k)).chain.Single made[k].2
  stamps : ∃ entered minted, made.map (·.2) = entered ++ minted ∧ v.Stamps w m entered minted
  told : ∃ told, least ≤ told ∧ told ≤ made.length ∧ made.length ≤ told + 1 ∧
    (∀ k < made.length, (v.object (w.objects.length + k)).announced = decide (k < told)) ∧
    ∃ events, v.log = w.log ++ events ∧ events.filter (·.created?.isSome) =
      (announcements m w.objects.length made).take told

namespace Raises

variable {made : List (String × Generation)} {least : Nat}

/-- Where nothing was made no notice is due. -/
theorem refl (w : World α) (m : ManagerId) : w.Raises w m [] 0 where
  makes := .refl w m
  later := .refl w
  object k hk := absurd hk (Nat.not_lt_zero k)
  stamps := ⟨[], [], rfl, nofun, nofun, List.Pairwise.nil, fun _ => rfl, fun _ h => absurd rfl h⟩
  told := ⟨0, Nat.le_refl 0, Nat.le_refl 0, Nat.zero_le 1, nofun, [],
    (List.append_nil _).symm, rfl⟩

/-- Fewer notices may be asked for. -/
theorem mono {less : Nat} (h : v.Raises w m made least) (hle : less ≤ least) :
    v.Raises w m made less := by
  obtain ⟨told, hleast, htold⟩ := h.told
  exact { h with told := ⟨told, Nat.le_trans hle hleast, htold⟩ }

/-- Between the notices much may happen to frames and to what records hold. -/
theorem calm (h : v.Raises w m made least) (hmakes : u.Makes w m made.length [])
    (hcalm : u.Calm v) (hlater : u.Later v) (hsingle : u.KeepsSingle v) :
    u.Raises w m made least where
  makes := hmakes
  later := h.later.trans hlater
  object k hk := by
    obtain ⟨htype, hchain⟩ := h.object k hk
    have hmade : w.objects.length + k < v.objects.length := by
      rw [h.makes.length_objects]
      exact Nat.add_lt_add_left hk _
    exact ⟨(hlater.object _ hmade).2.trans htype, hsingle _ _ hchain⟩
  stamps := by
    obtain ⟨entered, minted, hmade, hstamps⟩ := h.stamps
    refine ⟨entered, minted, hmade, hstamps.of_later hlater fun hu => ?_⟩
    obtain ⟨f, hf⟩ := Option.isSome_iff_exists.mp hu
    exact Option.isSome_of_eq_some
      (makingFrame?_of_stays hcalm.current (fun f => (hcalm.frames f).2) hf)
  told := by
    obtain ⟨told, hleast, hle, hlast, hannounced, events, hlog, hcreated⟩ := h.told
    obtain ⟨more, hmore, hnone⟩ := hcalm.log
    refine ⟨told, hleast, hle, hlast, fun k hk => ?_, events ++ more, ?_, ?_⟩
    · rw [(hcalm.objects _).2]
      exact hannounced k hk
    · rw [hmore, hlog, List.append_assoc]
    · have hquiet : more.filter (·.created?.isSome) = [] := by
        rw [List.filter_eq_nil_iff]
        intro event hevent hsome
        obtain ⟨o, ho⟩ := Option.isSome_iff_exists.mp hsome
        have hmem := List.mem_filterMap.mpr ⟨event, hevent, ho⟩
        rw [hnone] at hmem
        cases hmem
      rw [List.filter_append, hquiet, List.append_nil, hcreated]

/-- To store a value raises no notice. -/
theorem store (h : v.Raises w m made least) (o : ObjectId) (g : Generation) (change : α → α) :
    (v.store o g change).Raises w m made least :=
  h.calm (h.makes.store o g change) (.store v o g change) (.store v o g change)
    (.store v o g change)

/-- To read an object raises no notice. -/
theorem readable (h : v.Raises w m made least) (o : ObjectId) :
    (v.running (Store.readable o)).2.Raises w m made least := by
  refine h.calm (h.makes.readable o) ?_ (.readable v o) ?_
  · rcases running_readable v o with hsame | htold
    · rw [hsame]
      exact .refl v
    · rw [htold]
      exact .tell v rfl
  · rcases running_readable v o with hsame | htold
    · rw [hsame]
      exact .of_objects rfl
    · rw [htold]
      exact .of_objects rfl

/-- Where objects can still be made in a frame all of them were made in it. -/
theorem find?_of_making (hw : w.Orderly) (h : v.Raises w m made least)
    (hle : w.objects.length ≤ o) (hlt : o < v.objects.length)
    (hmaking : v.makingFrame? m = some f) :
    ((v.object o).chain.find? (v.frame f).generation).isSome = true := by
  obtain ⟨k, rfl⟩ := Nat.exists_eq_add_of_le hle
  rw [h.makes.length_objects] at hlt
  have hk : k < made.length := Nat.lt_of_add_lt_add_left hlt
  obtain ⟨entered, minted, hmade, hstamps⟩ := h.stamps
  rw [hstamps.closed (Option.isSome_of_eq_some hmaking), List.append_nil] at hmade
  have hmem : made[k].2 ∈ entered := by
    rw [← hmade]
    exact List.mem_map_of_mem (List.getElem_mem hk)
  obtain ⟨f', hf', hgeneration⟩ := hstamps.of_entered _ hmem
  obtain rfl : f = f' := Option.some.inj ((h.makes.making f hmaking).symm.trans hf')
  have hstamp := h.later.stamp f (hw.current f (current_of_makingFrame? hf'))
  have hview : (v.frame f).view = (w.frame f).view := congrArg Prod.snd hstamp
  have hfound := (h.object k hk).2.find?
  rwa [← hgeneration, Frame.generation, ← hview, ← Frame.generation] at hfound

/-- Whatever becomes of a write to one of the objects. -/
theorem writable (hw : w.Orderly) (h : v.Raises w m made least) (hle : w.objects.length ≤ o)
    (hlt : o < v.objects.length) :
    (v.running (Store.writable o)).2.Raises w m made least := by
  have howner := h.makes.owner o hle hlt
  refine h.calm (h.makes.writable hle hlt) (.writable fun f hmaking => ?_) (.writable v o)
    (.writable v o fun f hmaking => ?_)
  · rw [howner] at hmaking
    exact h.makes.mem_touched hle hlt hmaking
  · rw [howner] at hmaking
    exact h.find?_of_making hw hle hlt hmaking

/-! ### Notices -/

/-- One of the objects is announced: either it was before, or it is the last one. -/
theorem announce (h : v.Raises w m made least) (hle : w.objects.length ≤ o)
    (hlt : o < v.objects.length) :
    (v.notifyCreated o).Raises w m made least ∧
      (o + 1 = w.objects.length + made.length →
        (v.notifyCreated o).Raises w m made made.length) := by
  obtain ⟨k, rfl⟩ := Nat.exists_eq_add_of_le hle
  have hk : k < made.length := by
    rw [h.makes.length_objects] at hlt
    exact Nat.lt_of_add_lt_add_left hlt
  obtain ⟨told, hleast, htold, hlast, hannounced, events, hlog, hcreated⟩ := h.told
  by_cases hdone : k < told
  · have hsame : v.notifyCreated (w.objects.length + k) = v := by
      rw [notifyCreated, hannounced k hk, decide_eq_true hdone]
      rfl
    rw [hsame]
    refine ⟨h, fun hend => ?_⟩
    have hall : made.length ≤ told := by
      have hnext : k + 1 = made.length := Nat.add_left_cancel hend
      omega
    exact { h with told := ⟨told, hall, htold, hlast, hannounced, events, hlog, hcreated⟩ }
  · suffices hall : (v.notifyCreated (w.objects.length + k)).Raises w m made made.length from
      ⟨hall.mono (Nat.le_trans hleast htold), fun _ => hall⟩
    obtain rfl : k = told := by omega
    obtain ⟨htype, hchain⟩ := h.object k hk
    have hfalse : (v.object (w.objects.length + k)).announced = false := by
      rw [hannounced k hk]
      simp
    have hlater : (v.notifyCreated (w.objects.length + k)).Later v := .notifyCreated hlt
    have hmakes := (h.makes.announce hle hlt).mono (List.nil_subset _)
    have hobject (p : ObjectId) : (v.notifyCreated (w.objects.length + k)).object p =
        if p = w.objects.length + k then { v.object p with announced := true } else v.object p := by
      rw [notifyCreated, hfalse]
      exact object_modifyObject hlt _ p
    have hframes : (v.notifyCreated (w.objects.length + k)).frames = v.frames := by
      rw [notifyCreated, hfalse]
      rfl
    have hlogs : (v.notifyCreated (w.objects.length + k)).log =
        v.log ++ [.created m (w.objects.length + k) made[k].1 made[k].2] := by
      rw [notifyCreated, hfalse, ← htype, ← hchain.first?, ← h.makes.owner _ hle hlt]
      rfl
    generalize v.notifyCreated (w.objects.length + k) = u at *
    have hmaking := makingFrame?_congr (hmakes.current.trans h.makes.current.symm) hframes m
    refine ⟨hmakes, h.later.trans hlater, fun j hj => ?_, ?_, k + 1, by omega, hk, by omega,
      fun j hj => ?_, events ++ [.created m (w.objects.length + k) made[k].1 made[k].2], ?_, ?_⟩
    · rw [hobject]
      split <;> exact h.object j hj
    · obtain ⟨entered, minted, hmade, hstamps⟩ := h.stamps
      exact ⟨entered, minted, hmade, hstamps.of_later hlater fun hu => hmaking ▸ hu⟩
    · rw [hobject]
      split
      · next heq =>
        obtain rfl : j = k := Nat.add_left_cancel heq
        simp
      · next hne =>
        rw [hannounced j hj]
        have hjk : j ≠ k := fun heq => hne (heq ▸ rfl)
        exact decide_eq_decide.mpr (by omega)
    · rw [hlogs, hlog, List.append_assoc]
    · rw [List.filter_append, hcreated, List.take_succ_eq_append_getElem (by simpa using hk)]
      simp [announcements, Event.created?]

/-! ### One more object -/

/-- One more object was made, and observers are still to be told of it. -/
theorem addObject (h : v.Raises w m made made.length) {typeName : String} {g : Generation}
    (hmakes : u.Makes w m (made.length + 1) []) (hlater : u.Later v) {new : Object α}
    (htype : new.typeName = typeName) (hchain : new.chain.Single g)
    (hannounced : new.announced = false)
    (hobject : ∀ p, u.object p = if p = v.objects.length then new else v.object p)
    (hlog : u.log = v.log)
    (hstamps : ∃ entered minted, made.map (·.2) ++ [g] = entered ++ minted ∧
      u.Stamps w m entered minted) :
    u.Raises w m (made ++ [(typeName, g)]) made.length := by
  have hlength : v.objects.length = w.objects.length + made.length := h.makes.length_objects
  have hold {k : Nat} (hk : k < made.length) :
      u.object (w.objects.length + k) = v.object (w.objects.length + k) := by
    rw [hobject, if_neg]
    rw [hlength]
    exact fun heq => Nat.ne_of_lt hk (Nat.add_left_cancel heq)
  have hnew : u.object (w.objects.length + made.length) = new := by
    rw [hobject, if_pos hlength.symm]
  obtain ⟨told, hleast, htold, -, hannouncedBefore, events, hevents, hcreated⟩ := h.told
  obtain rfl : told = made.length := Nat.le_antisymm htold hleast
  refine ⟨by simpa using hmakes, h.later.trans hlater, fun k hk => ?_, by simpa using hstamps,
    made.length, Nat.le_refl _, by simp, by simp, fun k hk => ?_, events, hlog.trans hevents, ?_⟩
  · rw [List.length_append, List.length_singleton] at hk
    rcases Nat.lt_succ_iff_lt_or_eq.mp hk with hk | rfl
    · rw [hold hk, List.getElem_append_left hk]
      exact h.object k hk
    · rw [hnew]
      simpa using ⟨htype, hchain⟩
  · rw [List.length_append, List.length_singleton] at hk
    rcases Nat.lt_succ_iff_lt_or_eq.mp hk with hk | rfl
    · rw [hold hk]
      exact hannouncedBefore k hk
    · rw [hnew, hannounced]
      simp
  · rw [announcements_concat, hcreated, List.take_left' (length_announcements ..),
      List.take_of_length_le (Nat.le_of_eq (length_announcements ..))]

/-- One more object is made. -/
theorem newObject (hw : w.Orderly) (hstart : w.Later {}) (hm : m < w.managers.length)
    (h : v.Raises w m made made.length) (typeName : String) (merge : α → α → α → Option α)
    (initial : α) :
    (v.newObject m typeName merge initial).2.Raises w m (made ++ [(typeName, v.stampFor m)])
      made.length := by
  have hmakes := h.makes.newObject hw typeName merge initial
  have hlater : (v.newObject m typeName merge initial).2.Later v := .newObject v m _ _ _
  obtain ⟨entered, minted, hmade, hstamps⟩ := h.stamps
  cases hmaking : v.makingFrame? m with
  | some f =>
    obtain rfl : minted = [] := hstamps.closed (Option.isSome_of_eq_some hmaking)
    have hfirst := h.makes.making f hmaking
    have hgeneration : (v.frame f).generation = (w.frame f).generation :=
      congrArg (·.2.generation)
        (h.later.stamp f (hw.current f (current_of_makingFrame? hfirst)))
    rw [stampFor, hmaking, Option.elim_some]
    unfold World.newObject at hmakes hlater ⊢
    rw [hmaking] at hmakes hlater ⊢
    refine h.addObject hmakes hlater rfl ⟨_, rfl, rfl⟩ rfl (object_addObject v _) rfl
      ⟨entered ++ [(w.frame f).generation], [], ?_, ?_⟩
    · rw [hmade, hgeneration, List.append_nil, List.append_nil]
    · refine (hstamps.enter hfirst).of_later hlater fun _ => ?_
      rw [hmaking]
      rfl
  | none =>
    have hminted := hstamps.mint h.later (fun g => (hstart.trans h.later).lt_next)
      (Nat.lt_of_lt_of_le hm h.later.length_managers) hmaking fun hentered hminted => ?_
    · rw [stampFor, hmaking, Option.elim_none]
      unfold World.newObject at hmakes hlater ⊢
      rw [hmaking] at hmakes hlater ⊢
      refine h.addObject hmakes hlater rfl ⟨_, rfl, rfl⟩ rfl (object_addObject _ _) rfl
        ⟨entered, minted ++ [(v.manager m).next], ?_, ?_⟩
      · rw [hmade, List.append_assoc]
      · exact hminted.of_later (.addObject _ rfl) id
    · -- Nothing was made, so there was no such frame from the start.
      have hnone : made.length = 0 := by
        rw [hentered, hminted] at hmade
        simpa using congrArg List.length hmade
      rw [← makingFrame?_congr h.makes.current (h.makes.unmade hnone) m]
      exact hmaking

end Raises

end World

end VersionedObjects.Store
