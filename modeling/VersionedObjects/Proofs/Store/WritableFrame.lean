import VersionedObjects.Proofs.Store.Calls

/-!
# Working inside a writable frame

Inside an open frame that may write, an object shows a value: the one that a read finds. A write
to one object changes what it shows by the function written, and leaves what the others show; what
is read and written does not end the work inside the frame.
-/

namespace VersionedObjects.Store

variable {α : Type}

/-! ## What a chain shows -/

namespace Chain

/-- A reader with a view finds a value in the chain, and may write it. -/
structure Shows (c : Chain α) (view : Visibility) (value : α) : Prop where
  ascending : c.Ascending
  /-- The reader's own record counts. -/
  intact : ∀ r, c.find? view.generation = some r → r.discarded = false
  shown : ∃ r, c.select? view = some r ∧ r.value = value

variable {c : Chain α} {view : Visibility} {value : α}

/-- A reader that has a record of its own finds it before all others. -/
theorem select?_own (hc : c.Ascending) (hown : view.own = true) {r : Record α}
    (hr : c.find? view.generation = some r) (hintact : r.discarded = false) :
    c.select? view = some r := by
  obtain ⟨hmem, hgeneration⟩ := mem_of_find? hr
  refine hc.newest?_eq_some_iff.mpr ⟨hmem, ?_, fun s _ hs => ?_⟩
  · simp [Record.visibleTo, Visibility.canSee, hintact, hown, hgeneration]
  · simp only [Record.visibleTo, Visibility.canSee, hown, Bool.true_and, Bool.and_eq_true,
      Bool.or_eq_true, beq_iff_eq, decide_eq_true_eq] at hs
    rw [hgeneration]
    rcases hs.2 with heq | hlt
    · exact Nat.le_of_eq heq
    · exact Nat.le_of_lt hlt.1

/-- The chain of a single record of the reader's own. -/
theorem shows_singleton (hown : view.own = true) {r : Record α}
    (hr : r.generation = view.generation) (hintact : r.discarded = false) :
    (singleton r).Shows view r.value := by
  have hfind : (singleton r).find? view.generation = some r := by
    simp [singleton, find?, hr]
  refine ⟨ascending_singleton r, ?_, r, ?_, rfl⟩
  · intro s hs
    rw [hfind] at hs
    cases hs
    exact hintact
  · exact select?_own (ascending_singleton r) hown hfind hintact

/-- The record that a reader branches becomes its own. -/
theorem Shows.link (h : c.Shows view value) (hown : view.own = true) {r : Record α}
    (hnew : c.find? view.generation = none) (hr : r.generation = view.generation)
    (hvalue : r.value = value) (hintact : r.discarded = false) :
    (c.link r).Shows view value ∧ (c.link r).find? view.generation = some r := by
  have hasc := h.ascending.link r
  have hfind : (c.link r).find? view.generation = some r :=
    hasc.find?_eq_some_iff.mpr ⟨(mem_link (hr ▸ hnew)).mpr (.inl rfl), hr⟩
  refine ⟨⟨hasc, ?_, r, select?_own hasc hown hfind hintact, hvalue⟩, hfind⟩
  intro s hs
  rw [hfind] at hs
  cases hs
  exact hintact

/-- What is stored into the reader's own record is what it finds. -/
theorem Shows.store (h : c.Shows view value) (hown : view.own = true) {r : Record α}
    (hr : c.find? view.generation = some r) (change : α → α) :
    (c.store view.generation change).Shows view (change value) := by
  have hintact := h.intact r hr
  obtain ⟨s, hs, rfl⟩ := h.shown
  have hsame : s = r := by
    rw [select?_own h.ascending hown hr hintact] at hs
    exact (Option.some.inj hs).symm
  subst hsame
  have hasc : (c.store view.generation change).Ascending := h.ascending.modify _ fun _ => rfl
  have hfind : (c.store view.generation change).find? view.generation =
      some (s.stored view.generation change) := by
    rw [find?_store, hr]
    rfl
  refine ⟨hasc, ?_, _, select?_own hasc hown hfind (by simpa using hintact), ?_⟩
  · intro t ht
    rw [hfind] at ht
    cases ht
    simpa using hintact
  · rw [Record.stored, if_pos (mem_of_find? hr).2]

end Chain

/-! ## What an object shows -/

/-- What of a frame decides how it reads and writes. -/
def Frame.stance (frame : Frame) : ManagerId × Visibility × FrameState × Bool × Option Closing :=
  (frame.manager, frame.view, frame.state, frame.options.readOnly, frame.options.onFirstWrite)

/-- Frames of one stance see the same generations. -/
theorem Frame.view_of_stance {frame other : Frame} (h : frame.stance = other.stance) :
    frame.view = other.view :=
  congrArg (·.2.1) h

namespace World

/-- A frame of a manager is current and open, may write, and is not closed by its observer. -/
structure Inside (w : World α) (m : ManagerId) (f : FrameId) : Prop where
  current : w.current = some f
  manager : (w.frame f).manager = m
  active : (w.frame f).isActive = true
  own : (w.frame f).view.own = true
  writable : (w.frame f).options.readOnly = false
  quiet : (w.frame f).options.onFirstWrite = none

/-- An object of a manager shows a value to a frame. -/
structure Shows (w : World α) (m : ManagerId) (f : FrameId) (o : ObjectId) (value : α) : Prop where
  manager : (w.object o).manager = m
  chain : (w.object o).chain.Shows (w.frame f).view value

variable {v w : World α} {m : ManagerId} {f : FrameId} {o : ObjectId} {value : α}

/-- The work inside a frame goes on in a world that keeps the frame's stance. -/
theorem Inside.of_stance (hw : w.Inside m f) (hcurrent : v.current = w.current)
    (hstance : (v.frame f).stance = (w.frame f).stance) : v.Inside m f := by
  simp only [Frame.stance, Prod.mk.injEq] at hstance
  obtain ⟨hmanager, hview, hstate, hreadOnly, honce⟩ := hstance
  refine ⟨hcurrent.trans hw.current, hmanager.trans hw.manager, ?_, ?_, hreadOnly.trans hw.writable,
    honce.trans hw.quiet⟩
  · rw [Frame.isActive, hstate]
    exact hw.active
  · rw [hview]
    exact hw.own

/-- A world that keeps the frame's stance and the object shows the same. -/
theorem Shows.of_object (h : w.Shows m f o value)
    (hstance : (v.frame f).stance = (w.frame f).stance)
    (hmanager : (v.object o).manager = (w.object o).manager)
    (hchain : (v.object o).chain = (w.object o).chain) : v.Shows m f o value := by
  refine ⟨hmanager.trans h.manager, ?_⟩
  rw [hchain, Frame.view_of_stance hstance]
  exact h.chain

/-- An object that shows a value was made. -/
theorem Shows.lt_length (h : w.Shows m f o value) : o < w.objects.length := by
  by_contra hlt
  obtain ⟨r, hr, -⟩ := h.chain.shown
  have hnil : (w.object o).chain.records = [] := chain_eq_nil (Nat.le_of_not_lt hlt)
  rw [Chain.select?, Chain.newest?, hnil] at hr
  cases hr

/-- Inside a frame that can read the object, this frame is the one an access to the object goes to.
-/
theorem Inside.currentFrameOf? (hw : w.Inside m f) (h : w.Shows m f o value) :
    w.currentFrameOf? (w.object o).manager = some f := by
  rw [h.manager, World.currentFrameOf?, hw.current, Option.filter_some,
    if_pos (beq_iff_eq.mpr hw.manager)]

/-- The frame whose work goes on was opened. -/
theorem Inside.lt_length (hw : w.Inside m f) : f < w.frames.length := by
  by_contra hlt
  have hown := hw.own
  rw [frame, List.getElem?_eq_none (Nat.le_of_not_lt hlt)] at hown
  cases hown

/-- A frame is opened to write, and entered. -/
theorem inside_of_openFrame {options : FrameOptions} {u : World α}
    (hopen : w.openFrame m options = (.ok f, v)) (hwritable : options.readOnly = false)
    (hquiet : options.onFirstWrite = none) (henter : v.enterFrame f = (.ok (), u)) :
    u.Inside m f := by
  let opened : Frame :=
    { manager := m, view := .ofFrame (w.manager m).next (w.manager m).openGenerations, options }
  obtain ⟨hf, hframes⟩ : f = w.frames.length ∧ v.frames = w.frames ++ [opened] := by
    unfold openFrame at hopen
    dsimp only at hopen
    split at hopen
    · cases hopen
    · cases hopen
      exact ⟨by simp [modifyManager], rfl⟩
  have hu : u = { v.hold f with current := some f } := by
    unfold enterFrame at henter
    split at henter
    · cases henter
    · cases henter
      rfl
  have hframe : u.frame f = { opened with holders := opened.holders + 1 } := by
    simp [hu, hf, frame, hold, modifyFrame, hframes]
  exact
    { current := by rw [hu]
      manager := by rw [hframe]
      active := by rw [hframe]; rfl
      own := by rw [hframe]; rfl
      writable := by rw [hframe]; exact hwritable
      quiet := by rw [hframe]; exact hquiet }

/-! ## Reading -/

/-- Inside a frame that can read the object, the object has a visible record. -/
theorem Inside.hasVisibleRecord (hw : w.Inside m f) (h : w.Shows m f o value) :
    w.hasVisibleRecord o = true := by
  obtain ⟨r, hr, -⟩ := h.chain.shown
  have hselect : w.select? o (w.frame f).view = some r := hr
  rw [World.hasVisibleRecord, hw.currentFrameOf? h]
  dsimp only
  rw [hselect]
  rfl

/-- A read finds what the object shows, and leaves frames and objects alone. -/
theorem Inside.readable (hw : w.Inside m f) (h : w.Shows m f o value) :
    ∃ r v, (Store.readable o).run w = .ok r v ∧ r.value = value ∧ v.frames = w.frames ∧
      v.current = w.current ∧ v.objects = w.objects := by
  obtain ⟨r, hr, hvalue⟩ := h.chain.shown
  have hselect : w.select? o (w.frame f).view = some r := hr
  rw [readable_run, hw.currentFrameOf? h]
  dsimp only
  rw [readableIn_run, if_pos hw.active, hselect]
  refine ⟨r, _, rfl, hvalue, ?_⟩
  split
  · exact ⟨rfl, rfl, rfl⟩
  · exact ⟨rfl, rfl, rfl⟩

/-! ## Writing -/

/-- Noting a write moves no frame to another stance. -/
theorem stance_noteWrite (w : World α) (f : FrameId) (o : ObjectId) (h : FrameId) :
    ((w.noteWrite f o).frame h).stance = (w.frame h).stance :=
  frame_noteWrite Frame.stance (fun _ _ => rfl) (fun _ _ => rfl) w f o h

/-- Noting a write leaves the stack of entered frames as it is. -/
theorem current_noteWrite (w : World α) (f : FrameId) (o : ObjectId) :
    (w.noteWrite f o).current = w.current := by
  unfold noteWrite
  split <;> rfl

/-- An observer that does not close the frame keeps its stance. -/
theorem afterObserver_quiet (hquiet : (w.frame f).options.onFirstWrite = none) :
    (w.afterObserver f o).current = w.current ∧ (w.afterObserver f o).objects = w.objects ∧
      ((w.afterObserver f o).frame f).stance = (w.frame f).stance := by
  unfold afterObserver
  split
  · rw [FrameOptions.closing?_quiet hquiet]
    refine ⟨rfl, rfl, ?_⟩
    change ((w.tellWrite f o).frame f).stance = _
    by_cases hf : f < w.frames.length
    · have hframe : (w.tellWrite f o).frame f =
          { w.frame f with options := (w.frame f).options.afterFirstWrite } := by
        rw [tellWrite, frame_modifyFrame (w := w.tell (.wrote o)) hf, if_pos rfl]
        rfl
      have hstill := FrameOptions.afterFirstWrite_quiet hquiet
      rw [hframe]
      simp [Frame.stance, hstill, hquiet]
    · have hsame : w.tellWrite f o = w.tell (.wrote o) := by
        unfold tellWrite modifyFrame
        rw [List.modify_eq_self (l := (w.tell (.wrote o)).frames) (Nat.le_of_not_lt hf)]
      rw [hsame]
      rfl
  · exact ⟨rfl, rfl, rfl⟩

/-- A write finds the frame's own record, or branches it from the one that the object shows. -/
theorem Inside.prepareWrite (hw : w.Inside m f) (h : w.Shows m f o value) :
    ∃ r v, w.prepareWrite f o = (.ok r, v) ∧ v.current = w.current ∧
      (v.frame f).stance = (w.frame f).stance ∧
      (v.object o).chain.find? (v.frame f).view.generation = some r ∧ v.Shows m f o value ∧
      ∀ p, p ≠ o → v.object p = w.object p := by
  have hown : ((w.frame f).manager != (w.object o).manager) = false := by
    simp [hw.manager, h.manager]
  have hnoted := stance_noteWrite w f o f
  unfold World.prepareWrite
  dsimp only
  rw [hw.active, hw.writable, hown]
  simp only [Bool.not_true, Bool.false_eq_true, if_false]
  cases hmine : (w.object o).chain.find? (w.frame f).generation with
  | some r =>
    refine ⟨r, _, rfl, current_noteWrite .., hnoted, ?_, ?_, fun p _ => object_noteWrite ..⟩
    · rw [Frame.view_of_stance hnoted, object_noteWrite]
      exact hmine
    · exact h.of_object hnoted (by rw [object_noteWrite]) (by rw [object_noteWrite])
  | none =>
    obtain ⟨base, hbase, hvalue⟩ := h.chain.shown
    have hselect : w.select? o (w.frame f).view = some base := hbase
    have ho : o < (w.noteWrite f o).objects.length := by
      rw [length_objects_noteWrite]
      exact h.lt_length
    have hobject := object_modifyObject ho fun object : Object α =>
      { object with chain := object.chain.link (base.branchedFor (w.frame f)) }
    have hlinked : (((w.noteWrite f o).modifyChain o
        (·.link (base.branchedFor (w.frame f)))).frame f).view = (w.frame f).view :=
      Frame.view_of_stance hnoted
    obtain ⟨hshows, hfind⟩ := h.chain.link (r := base.branchedFor (w.frame f)) hw.own hmine rfl
      hvalue rfl
    rw [hselect]
    refine ⟨_, _, rfl, current_noteWrite .., hnoted, ?_, ⟨?_, ?_⟩, fun p hp => ?_⟩
    · rw [hlinked, modifyChain, hobject, if_pos rfl, object_noteWrite]
      exact hfind
    · rw [modifyChain, hobject, if_pos rfl, object_noteWrite]
      exact h.manager
    · rw [hlinked, modifyChain, hobject, if_pos rfl, object_noteWrite]
      exact hshows
    · rw [modifyChain, hobject, if_neg hp, object_noteWrite]

/-- A write finds the frame's own record of the object; what is then stored into it is what the
object shows, and all others show what they did. -/
theorem Inside.write (hw : w.Inside m f) (h : w.Shows m f o value) (change : α → α) :
    ∃ r v, (Store.writable o).run w = .ok r v ∧
      (v.store o r.generation change).Inside m f ∧
      (v.store o r.generation change).Shows m f o (change value) ∧
      ∀ p x, p ≠ o → w.Shows m f p x → (v.store o r.generation change).Shows m f p x := by
  obtain ⟨r, u, hprepare, hcurrent, hstance, hfind, hshows, hothers⟩ := hw.prepareWrite h
  have hu := hw.of_stance hcurrent hstance
  -- The observer, where there is one, neither closes the frame nor touches an object.
  obtain ⟨v, hv, hvcurrent, hvobjects, hvstance⟩ : ∃ v,
      (Store.writable o).run w = .ok r v ∧ v.current = u.current ∧ v.objects = u.objects ∧
        (v.frame f).stance = (u.frame f).stance := by
    rw [writable_run, hw.current]
    dsimp only
    rw [writableIn_run, hprepare]
    refine ⟨_, rfl, ?_⟩
    split
    · exact ⟨rfl, rfl, rfl⟩
    · exact afterObserver_quiet hu.quiet
  have hobject (p : ObjectId) : v.object p = u.object p := by
    rw [object, hvobjects, ← object]
  have hr : r.generation = (u.frame f).view.generation := (Chain.mem_of_find? hfind).2
  have ho : o < v.objects.length := by
    rw [hvobjects]
    exact hshows.lt_length
  have hstored (p : ObjectId) : (v.store o r.generation change).object p =
      if p = o then { v.object p with chain := (v.object p).chain.store r.generation change }
      else v.object p := object_modifyObject ho _ p
  have hafter : ((v.store o r.generation change).frame f).stance = (u.frame f).stance := hvstance
  refine ⟨r, v, hv, hu.of_stance hvcurrent hafter, ⟨?_, ?_⟩, fun p x hp hx => ?_⟩
  · rw [hstored, if_pos rfl, hobject]
    exact hshows.manager
  · rw [hstored, if_pos rfl, hobject, Frame.view_of_stance hafter, hr]
    exact hshows.chain.store hu.own hfind change
  · have hkept : (v.store o r.generation change).object p = w.object p := by
      rw [hstored, if_neg hp, hobject, hothers p hp]
    exact hx.of_object (hafter.trans hstance) (by rw [hkept]) (by rw [hkept])

/-! ## Making objects -/

/-- An object of a manager has one record only. -/
structure Sole (w : World α) (m : ManagerId) (o : ObjectId) (g : Generation) (value : α) :
    Prop where
  manager : (w.object o).manager = m
  chain : (w.object o).chain = .singleton { generation := g, base := none, value }

/-- The sole record of an object is shown to the frame that it belongs to. -/
theorem Sole.shows (h : w.Sole m o (w.frame f).generation value) (hw : w.Inside m f) :
    w.Shows m f o value := by
  refine ⟨h.manager, ?_⟩
  rw [h.chain]
  exact Chain.shows_singleton hw.own rfl rfl

/-- An object with a sole record exists. -/
theorem Sole.lt_length {g : Generation} (h : w.Sole m o g value) : o < w.objects.length := by
  by_contra hlt
  have hnil : (w.object o).chain.records = [] := chain_eq_nil (Nat.le_of_not_lt hlt)
  rw [h.chain] at hnil
  cases hnil

/-- Storing into the sole record of an object. -/
theorem Sole.store {g : Generation} (h : w.Sole m o g value) (change : α → α) :
    (w.store o g change).Sole m o g (change value) ∧
      ∀ p, p ≠ o → (w.store o g change).object p = w.object p := by
  have hstored (p : ObjectId) : (w.store o g change).object p =
      if p = o then { w.object p with chain := (w.object p).chain.store g change }
      else w.object p := object_modifyObject h.lt_length _ p
  refine ⟨⟨?_, ?_⟩, fun p hp => by rw [hstored, if_neg hp]⟩
  · rw [hstored, if_pos rfl]
    exact h.manager
  · rw [hstored, if_pos rfl]
    simp [h.chain, Chain.store, Chain.modify, Chain.singleton]

/-- Touching an object changes no stance. -/
theorem stance_touch (w : World α) (hf : f < w.frames.length) (o : ObjectId) :
    ((w.touch f o).frame f).stance = (w.frame f).stance := by
  rw [touch, frame_modifyFrame hf, if_pos rfl]
  split <;> rfl

/-- An object made inside the frame has one record, which is the frame's. -/
theorem Inside.newObject (hw : w.Inside m f) (typeName : String) (merge : α → α → α → Option α)
    (initial : α) {o : ObjectId} {v : World α}
    (h : w.newObject m typeName merge initial = (o, v)) :
    o = w.objects.length ∧ v.current = w.current ∧ (v.frame f).stance = (w.frame f).stance ∧
      v.Sole m o (w.frame f).generation initial ∧
      ∀ p, p < w.objects.length → v.object p = w.object p := by
  have hmaking : w.makingFrame? m = some f := by
    simp [makingFrame?, World.currentFrameOf?, hw.current, Option.filter_some, hw.manager,
      hw.active, hw.writable]
  rw [World.newObject, hmaking] at h
  cases h
  refine ⟨rfl, rfl, stance_touch _ hw.lt_length _, ⟨?_, ?_⟩, fun p hp => ?_⟩
  · simp [touch, object, modifyFrame]
  · simp [touch, object, modifyFrame]
  · simp [touch, object, modifyFrame, List.getElem?_append_left hp]

/-- Announcing an object changes no frame and no chain. -/
theorem notifyCreated_keeps (w : World α) (o : ObjectId) :
    (w.notifyCreated o).current = w.current ∧ (w.notifyCreated o).frames = w.frames ∧
      (w.notifyCreated o).objects.length = w.objects.length ∧
      ∀ p, ((w.notifyCreated o).object p).manager = (w.object p).manager ∧
        ((w.notifyCreated o).object p).chain = (w.object p).chain := by
  unfold notifyCreated
  dsimp only
  split
  · exact ⟨rfl, rfl, rfl, fun _ => ⟨rfl, rfl⟩⟩
  · refine ⟨rfl, rfl, length_objects_modifyObject w o _, fun p => ?_⟩
    change ((w.modifyObject o _).object p).manager = _ ∧ ((w.modifyObject o _).object p).chain = _
    by_cases ho : o < w.objects.length
    · rw [object_modifyObject ho]
      split <;> exact ⟨rfl, rfl⟩
    · rw [modifyObject, List.modify_eq_self (Nat.le_of_not_lt ho)]
      exact ⟨rfl, rfl⟩

end World

end VersionedObjects.Store
