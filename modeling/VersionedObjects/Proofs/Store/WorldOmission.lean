import VersionedObjects.Proofs.Store.LedgerOmission
import VersionedObjects.Proofs.Store.Mirroring
import VersionedObjects.Proofs.Store.WorldThinning

/-!
# Worlds without the work of a frame

A world omits the work of a frame of another one when it mirrors that world and its ledger omits the
records of the frame. As long as the frame is open, no other frame is shown its generation. Main
statements: whatever is done to both worlds by other frames, outside of frames, or to close the
frame without a commit, has the same result in both and leaves it so, and so does whatever the frame
does in the one world alone.
-/

namespace VersionedObjects.Store

variable {α : Type}

/-- What is to merge, or the first conflict, with the objects renamed. -/
def renamedMerges (others : List ObjectId) :
    Except (ObjectId × Generation) (List (PendingMerge α)) →
      Except (ObjectId × Generation) (List (PendingMerge α))
  | .error (o, committed) => .error (others.idxOf o, committed)
  | .ok merges => .ok (merges.map (·.renamed others))

namespace World

variable {a b u v : World α} {f k : FrameId} {o : ObjectId} {others all : List ObjectId}
  {effects effects' : List (Effect α)}

/-- Objects that check the same under their new names, and others that check clean, have the same
to merge. -/
theorem checkTouched_positions {view : Visibility} {isOpen isOpen' : Generation → Bool}
    {objects : List ObjectId}
    (hsame : ∀ o ∈ objects, o ∈ others →
      (b.object (others.idxOf o)).checkCommit view isOpen' =
        (a.object o).checkCommit view isOpen)
    (hclean : ∀ o ∈ objects, o ∉ others → (a.object o).checkCommit view isOpen = .clean) :
    b.checkTouched view isOpen' (positions others objects) =
      renamedMerges others (a.checkTouched view isOpen objects) := by
  induction objects with
  | nil => rfl
  | cons o rest ih =>
    have ih := ih (fun p hp => hsame p (List.mem_cons_of_mem o hp))
      fun p hp => hclean p (List.mem_cons_of_mem o hp)
    by_cases ho : o ∈ others
    · rw [positions_cons_of_mem ho, checkTouched, checkTouched, hsame o List.mem_cons_self ho, ih]
      cases (a.object o).checkCommit view isOpen with
      | clean => rfl
      | conflict committed => rfl
      | merge committed value => cases a.checkTouched view isOpen rest <;> rfl
    · rw [positions_cons_of_notMem ho, checkTouched, hclean o List.mem_cons_self ho, ih]

/-- What a frame touched or wrote was made. -/
theorem Tidy.lt_of_touched (ha : a.Tidy) (k : FrameId) :
    (∀ o ∈ (a.frame k).touched, o < a.objects.length) ∧
      ∀ o ∈ (a.frame k).written, o < a.objects.length := by
  by_cases hk : k < a.frames.length
  · have hfits := ha.fits k hk
    exact ⟨hfits.made, fun o ho => hfits.made o (hfits.written o ho)⟩
  · have hblank : a.frame k = default := by
      rw [frame, List.getElem?_eq_none (Nat.le_of_not_lt hk), Option.getD_none]
    rw [hblank]
    constructor
    · intro o ho
      cases ho
    · intro o ho
      cases ho

/-- A read changes nothing but what the observer was told. -/
theorem outline_readableIn (w : World α) (k : FrameId) (o : ObjectId) :
    (w.running (readableIn k o)).2.outline = w.outline := by
  rw [running, readableIn_run]
  cases (w.frame k).isActive with
  | false => rfl
  | true =>
    cases w.select? o (w.frame k).view with
    | none => rfl
    | some r => cases (w.frame k).options.observed <;> rfl

/-- To read an object changes nothing but what the observer was told. -/
theorem outline_readable (w : World α) (o : ObjectId) :
    (w.running (readable o)).2.outline = w.outline := by
  rw [running, readable_run]
  cases w.currentFrameOf? (w.object o).manager with
  | some k => exact w.outline_readableIn k o
  | none => cases w.selectCommitted? o <;> rfl

/-- The world is another one without the work of a frame. -/
structure Omits (b a : World α) (f : FrameId) (others all : List ObjectId) : Prop
    extends Mirrors b a f others all where
  tidy : b.Tidy
  tidy' : a.Tidy
  closed : (a.frame f).isActive = false →
    (a.frame f).generation ∉ a.ledger.table.generations
  hidden : ∀ k < a.frames.length, k ≠ f →
    (a.frame f).generation ∈ a.ledger.table.generations →
    (a.frame k).view.canSee (a.frame f).generation = false
  ledger : b.ledger.Omits a.ledger (a.frame f).generation others

namespace Omits

/-! ## What is the same -/

/-- A frame that was opened in the one world was opened in the other one. -/
theorem lt_length (h : b.Omits a f others all) (hk : k < a.frames.length) : k < b.frames.length :=
  h.length_frames.symm ▸ hk

/-- A frame that is open in the one world is open in the other one. -/
theorem active (h : b.Omits a f others all) (hactive : (a.frame k).isActive = true) :
    (b.frame k).isActive = true :=
  (h.isActive_eq k).trans hactive

/-- The others were made in both worlds. -/
theorem made_lt (h : b.Omits a f others all) (ho : o ∈ others) :
    others.idxOf o < b.objects.length :=
  h.length_objects.symm ▸ List.idxOf_lt_length_iff.mpr ho

/-- No other frame has the generation of the frame. -/
theorem generation_ne (h : b.Omits a f others all) (hk : k < a.frames.length) (hne : k ≠ f) :
    (a.frame k).generation ≠ (a.frame f).generation :=
  fun heq => hne (h.tidy'.eq_of_generation_eq hk h.opened heq)

/-- Other frames have the same records of their own. -/
theorem find?_eq (h : b.Omits a f others all) (hk : k < a.frames.length) (hne : k ≠ f)
    (ho : o ∈ others) :
    (b.object (others.idxOf o)).chain.find? (b.frame k).generation =
      (a.object o).chain.find? (a.frame k).generation := by
  rw [h.generation_eq]
  exact h.ledger.find?_eq ho (h.generation_ne hk hne)

/-- Other frames select the same. -/
theorem select?_eq (h : b.Omits a f others all) (hk : k < a.frames.length) (hne : k ≠ f)
    (ho : o ∈ others) :
    b.select? (others.idxOf o) (b.frame k).view = a.select? o (a.frame k).view := by
  rw [h.view_eq]
  exact h.ledger.select?_eq ho (h.hidden k hk hne)

/-- The newest committed records are the same. -/
theorem selectCommitted?_eq (h : b.Omits a f others all) (ho : o ∈ others) :
    b.selectCommitted? (others.idxOf o) = a.selectCommitted? o := by
  rw [h.tidy.selectCommitted?_eq, h.tidy'.selectCommitted?_eq, h.ledger.newest?_eq ho]

/-- Other frames have no records of what the frame made. -/
theorem find?_made (h : b.Omits a f others all) (hk : k < a.frames.length) (hne : k ≠ f)
    (ho : o ∉ others) : (a.object o).chain.find? (a.frame k).generation = none :=
  h.ledger.find?_made ho (h.generation_ne hk hne)

/-- Other frames select nothing of what the frame made. -/
theorem select?_made (h : b.Omits a f others all) (hk : k < a.frames.length) (hne : k ≠ f)
    (ho : o ∉ others) : a.select? o (a.frame k).view = none :=
  h.ledger.select?_made ho (h.hidden k hk hne)

/-- Nothing that the frame made is committed. -/
theorem selectCommitted?_made (h : b.Omits a f others all) (ho : o ∉ others) :
    a.selectCommitted? o = none := by
  rw [selectCommitted?, h.tidy'.now_eq]
  refine h.ledger.select?_made ho fun hg => ?_
  rw [Bool.eq_false_iff]
  exact fun hsee => (Visibility.canSee_snapshot.mp hsee).2 hg

/-- Once the frame is closed, no view selects anything that it made. -/
theorem select?_made_of_closed (h : b.Omits a f others all) (hclosed : (a.frame f).isActive = false)
    (ho : o ∉ others) (view : Visibility) : a.select? o view = none :=
  h.ledger.select?_made ho fun hg => absurd hg (h.closed hclosed)

/-- What the frame made checks clean in the commits of other frames. -/
theorem checkCommit_made (h : b.Omits a f others all) (hk : k < a.frames.length) (hne : k ≠ f)
    (ho : o ∉ others) (isOpen : Generation → Bool) :
    (a.object o).checkCommit (a.frame k).view isOpen = .clean := by
  have hnone : (a.object o).chain.find? (a.frame k).view.generation = none :=
    h.find?_made hk hne ho
  rw [Object.checkCommit, hnone]

/-- Another frame lists the same objects in the same order, but for those that the frame made. -/
theorem listed_eq (h : b.Omits a f others all) (hk : k < a.frames.length) (hne : k ≠ f) :
    (b.frame k).listed = positions others (a.frame k).listed := by
  rw [h.other k hne, Frame.listed_renamed,
    h.foresees.positions_eq (h.tidy'.fits k hk).made_listed]

/-- The commit of another frame has the same to merge. -/
theorem pendingMerges_eq (h : b.Omits a f others all) (hk : k < a.frames.length) (hne : k ≠ f)
    (hactive : (a.frame k).isActive = true) :
    b.pendingMerges k = renamedMerges others (a.pendingMerges k) := by
  rw [pendingMerges, pendingMerges, h.listed_eq hk hne]
  have hview := h.view_eq k
  rw [hview]
  refine checkTouched_positions (fun o _ ho => ?_) fun o _ ho => h.checkCommit_made hk hne ho _
  have hfind : (b.ledger.chain (others.idxOf o)).find? (b.frame k).generation =
      (a.ledger.chain o).find? (a.frame k).generation := h.find?_eq hk hne ho
  rw [← hview, checkCommit_eq_found h.tidy (h.lt_length hk) (h.active hactive), hfind, hview,
    checkCommit_eq_found h.tidy' hk hactive, h.ledger.inherited?_eq ho, h.ledger.newest?_eq ho,
    (h.identity o ho).2]

/-- What another frame merges is among the others. -/
theorem mem_of_pendingMerges (h : b.Omits a f others all) (hk : k < a.frames.length) (hne : k ≠ f)
    {merges : List (PendingMerge α)} (hpending : a.pendingMerges k = .ok merges) :
    ∀ merge ∈ merges, merge.object ∈ others := by
  obtain ⟨-, -, hmem⟩ := of_checkTouched_ok hpending
  intro merge hmerge
  by_contra ho
  have hfound := ((hmem merge).mp hmerge).2
  rw [h.checkCommit_made hk hne ho] at hfound
  cases hfound

/-- What another frame loses on is among the others. -/
theorem mem_of_conflict (h : b.Omits a f others all) (hk : k < a.frames.length) (hne : k ≠ f)
    {committed : Generation} (hpending : a.pendingMerges k = .error (o, committed)) :
    o ∈ others := by
  by_contra ho
  have hfound := (of_checkTouched_error hpending).2
  rw [h.checkCommit_made hk hne ho] at hfound
  cases hfound

/-! ## What stays so -/

/-- Worlds that mirror each other after effects on ledgers of which the one goes on to omit the
records of the frame. -/
theorem of_follows (h : b.Omits a f others all) {others' : List ObjectId}
    (hv : Follows v b effects') (hu : Follows u a effects) (hmirrors : v.Mirrors u f others' all)
    (hlength : u.frames.length = a.frames.length)
    (hstate : (u.frame f).isActive = (a.frame f).isActive ∨
      (a.frame f).generation ∉ u.ledger.table.generations)
    (hledger : v.ledger.Omits u.ledger (a.frame f).generation others') :
    v.Omits u f others' all := by
  have hgen : (u.frame f).generation = (a.frame f).generation :=
    congrArg Visibility.generation (frame_of_keeps hu.keeps h.opened).2
  have hpast (hg : (a.frame f).generation ∈ u.ledger.table.generations) :
      (a.frame f).generation ∈ a.ledger.table.generations := by
    obtain ⟨invalid, hentry⟩ := OpenTable.mem_generations.mp hg
    rw [hu.ledger_eq] at hentry
    exact OpenTable.mem_generations.mpr
      ⟨invalid, Ledger.mem_table_of_mem_run hentry (h.tidy'.fits f h.opened).minted⟩
  refine ⟨hmirrors, hv.tidy, hu.tidy, fun hclosed => ?_, fun k hk hne hg => ?_, hgen ▸ hledger⟩
  · rw [hgen]
    rcases hstate with hstate | hstate
    · exact fun hg => h.closed (hstate ▸ hclosed) (hpast hg)
    · exact hstate
  · rw [hgen] at hg ⊢
    rw [hlength] at hk
    rw [(frame_of_keeps hu.keeps hk).2]
    exact h.hidden k hk hne (hpast hg)

/-- The same, when only the one world is changed. -/
theorem of_follows_left (h : b.Omits a f others all) (hu : Follows u a effects)
    (hmirrors : b.Mirrors u f others all) (hlength : u.frames.length = a.frames.length)
    (hstate : (u.frame f).isActive = (a.frame f).isActive)
    (hledger : b.ledger.Omits u.ledger (a.frame f).generation others) : b.Omits u f others all :=
  h.of_follows (.refl h.tidy) hu hmirrors hlength (Or.inl hstate) hledger

/-- Nothing that matters is changed. -/
theorem congr (h : b.Omits a f others all) (hv : v.outline = b.outline)
    (hvledger : v.ledger = b.ledger) (hu : u.outline = a.outline)
    (huledger : u.ledger = a.ledger) : v.Omits u f others all := by
  have hframes : u.frames = a.frames := congrArg Outline.frames hu
  have hframe : u.frame f = a.frame f := by rw [frame, hframes, frame]
  refine h.of_follows (.of_same h.tidy hv hvledger) (.of_same h.tidy' hu huledger)
    (h.toMirrors.congr hv hu) (by rw [hframes]) (Or.inl (by rw [hframe])) ?_
  rw [hvledger, huledger]
  exact h.ledger

/-- Nothing that matters is changed in the one world. -/
theorem congr_left (h : b.Omits a f others all) (hu : u.outline = a.outline)
    (huledger : u.ledger = a.ledger) : b.Omits u f others all :=
  h.congr rfl rfl hu huledger

/-- Any frame that was opened may become current in both worlds. -/
theorem setCurrent (h : b.Omits a f others all) {current : Option FrameId}
    (hcurrent : ∀ k, current = some k → k < a.frames.length) :
    World.Omits { b with current := current } { a with current := current } f others all where
  toMirrors := h.toMirrors.of_frames rfl rfl h.length_frames h.opened rfl h.other h.own
  tidy := h.tidy.setCurrent fun k hk => h.lt_length (hcurrent k hk)
  tidy' := h.tidy'.setCurrent hcurrent
  closed := h.closed
  hidden := h.hidden
  ledger := h.ledger

/-- A change that both make to a frame alike, and that does not close it. -/
theorem modifyFrame (h : b.Omits a f others all) (hk : k < a.frames.length) {g : Frame → Frame}
    (hv : Follows v b []) (hu : Follows u a [])
    (hvoutline : v.outline = b.outline.modifyFrame k g)
    (huoutline : u.outline = a.outline.modifyFrame k g)
    (hother : ∀ frame, g (frame.renamed all) = (g frame).renamed all)
    (hown : ∀ {idle busy : Frame}, idle.Idles busy → (g idle).Idles (g busy))
    (hactive : ∀ frame, (g frame).isActive = frame.isActive) : v.Omits u f others all := by
  have huframes : u.frames = (a.modifyFrame k g).frames := congrArg Outline.frames huoutline
  refine h.of_follows hv hu ?_ ?_ (Or.inl ?_) ?_
  · exact h.toMirrors.modifyFrame hk hvoutline huoutline (fun _ => hother _) fun _ => hown h.own
  · rw [huframes, length_frames_modifyFrame]
  · rw [frame_of_modifyFrame huoutline hk]
    split
    · exact hactive _
    · rfl
  · rw [hv.ledger_eq, hu.ledger_eq]
    exact h.ledger

/-- Both worlds may hold on to a frame. -/
theorem hold (h : b.Omits a f others all) (hk : k < a.frames.length) :
    (b.hold k).Omits (a.hold k) f others all :=
  h.modifyFrame hk (follows_hold h.tidy k) (follows_hold h.tidy' k) rfl rfl (fun _ => rfl)
    (fun hidles => { hidles with holders_eq := congrArg (· + 1) hidles.holders_eq })
    fun _ => rfl

/-- Both worlds may let go of a frame without more. -/
theorem letGo (h : b.Omits a f others all) (hk : k < a.frames.length) :
    (b.letGo k).Omits (a.letGo k) f others all :=
  h.modifyFrame hk (follows_letGo h.tidy k) (follows_letGo h.tidy' k) rfl rfl (fun _ => rfl)
    (fun hidles => { hidles with holders_eq := congrArg (· - 1) hidles.holders_eq })
    fun _ => rfl

/-! ## Closing frames -/

/-- A frame is closed in both worlds, whose ledgers go on. -/
theorem close (h : b.Omits a f others all) (hk : k < a.frames.length) {state state' : FrameState}
    (hv : Follows v b effects') (hu : Follows u a effects)
    (hvoutline : v.outline = b.outline.modifyFrame k fun frame => { frame with state := state' })
    (huoutline : u.outline = a.outline.modifyFrame k fun frame => { frame with state := state })
    (hstate : k ≠ f → state' = state)
    (hown : k = f → state ≠ .active ∧ state' ≠ .active ∧
      (a.frame f).generation ∉ u.ledger.table.generations)
    (hledger : v.ledger.Omits u.ledger (a.frame f).generation others) : v.Omits u f others all := by
  have huframes : u.frames = (a.modifyFrame k fun frame =>
      { frame with state := state }).frames := congrArg Outline.frames huoutline
  have hclosed {state : FrameState} (hne : state ≠ .active) (frame : Frame) :
      Frame.isActive { frame with state := state } = false := by
    rw [Bool.eq_false_iff]
    exact fun hactive => hne (beq_iff_eq.mp hactive)
  refine h.of_follows hv hu ?_ ?_ ?_ hledger
  · refine h.toMirrors.modifyFrame hk hvoutline huoutline (fun hne => ?_) fun heq => ?_
    · rw [hstate hne]
      rfl
    · obtain ⟨hactive, hactive', -⟩ := hown heq
      exact { h.own with isActive_eq := (hclosed hactive' _).trans (hclosed hactive _).symm }
  · rw [huframes, length_frames_modifyFrame]
  · by_cases heq : k = f
    · exact Or.inr (hown heq).2.2
    · left
      rw [frame_of_modifyFrame huoutline hk, if_neg fun hfk => heq hfk.symm]

/-- The generation of a frame is not open after the frame was discarded. -/
theorem notMem_of_discarded (a : World α) (f : FrameId) :
    (a.frame f).generation ∉
      (a.ledger.run [.discarded (a.frame f).generation]).table.generations :=
  fun hopen => (OpenTable.mem_generations_without.mp hopen).2 rfl

/-- A frame is discarded. -/
theorem discardActive (h : b.Omits a f others all) (hk : k < a.frames.length)
    (hactive : (a.frame k).isActive = true) :
    (b.discardActive k).Omits (a.discardActive k) f others all := by
  have hv := follows_discardActive h.tidy (h.lt_length hk) (h.active hactive)
  have hu := follows_discardActive h.tidy' hk hactive
  refine h.close hk hv hu (outline_discardActive b k) (outline_discardActive a k)
    (fun _ => rfl) (fun heq => ⟨nofun, nofun, ?_⟩) ?_
  · subst heq
    rw [hu.ledger_eq]
    exact notMem_of_discarded a k
  · rw [hv.ledger_eq, hu.ledger_eq, h.generation_eq]
    have hopen := h.tidy'.generation_mem hk hactive
    by_cases heq : k = f
    · subst heq
      refine h.ledger.apply_discarded_own h.tidy'.sound hopen rfl rfl fun o ho => ?_
      refine Chain.discard_eq_self (Chain.find?_eq_none_iff.mpr fun r hr => ?_)
      rw [h.ledger.chain o ho] at hr
      exact (Chain.mem_omitting.mp hr).2
    · exact h.ledger.apply_discarded h.tidy'.sound h.tidy.sound hopen (h.generation_ne hk heq)

/-- A frame, open or closed, may be discarded in both worlds. -/
theorem discard (h : b.Omits a f others all) (hk : k < a.frames.length) :
    (b.discard k).Omits (a.discard k) f others all := by
  rw [World.discard, World.discard, h.isActive_eq]
  split
  · next hactive => exact h.discardActive hk hactive
  · exact h

/-- Both worlds may let go of a frame, which is discarded in both or in neither. -/
theorem release (h : b.Omits a f others all) (hk : k < a.frames.length) :
    (b.release k).Omits (a.release k) f others all := by
  have hletGo := h.letGo hk
  have hk' : k < (a.letGo k).frames.length := (length_frames_modifyFrame ..).symm ▸ hk
  rw [World.release, World.release, ← World.letGo, ← World.letGo, hletGo.holders_eq]
  split
  · exact hletGo.discard hk'
  · exact hletGo

/-! ## Committing frames -/

/-- Another frame is committed in both worlds or loses in both. -/
theorem stateAfterCommit_eq (h : b.Omits a f others all) (hk : k < a.frames.length) (hne : k ≠ f)
    (hactive : (a.frame k).isActive = true) : b.stateAfterCommit k = a.stateAfterCommit k := by
  rw [stateAfterCommit, stateAfterCommit, h.pendingMerges_eq hk hne hactive]
  cases a.pendingMerges k <;> rfl

/-- The commit of another frame has the same result, but for the names of objects. -/
theorem commitResult_eq (h : b.Omits a f others all) (hk : k < a.frames.length) (hne : k ≠ f)
    (hactive : (a.frame k).isActive = true) :
    b.commitResult k = renamedOutcome others (a.commitResult k) := by
  rw [commitResult, commitResult, h.pendingMerges_eq hk hne hactive, h.generation_eq,
    h.listed_eq hk hne]
  cases hpending : a.pendingMerges k with
  | error e =>
    obtain ⟨o, committed⟩ := e
    have htype := (h.identity o (h.mem_of_conflict hk hne hpending)).1
    simp only [renamedMerges, renamedOutcome, Refusal.renamed, htype]
  | ok merges =>
    have hmem := h.mem_of_pendingMerges hk hne hpending
    have hmerged : positions others (merges.map (·.object)) =
        (merges.map (·.renamed others)).map (·.object) := by
      rw [positions_eq_map, List.map_map, List.map_map]
      · rfl
      · intro o ho
        obtain ⟨merge, hmerge, rfl⟩ := List.mem_map.mp ho
        exact hmem merge hmerge
    simp only [renamedMerges, renamedOutcome, CommitEvent.renamed, hmerged, List.length_map,
      h.ledger.next_eq]

/-- What a commit of another frame does to the ledgers. -/
theorem ledger_commitEffects (h : b.Omits a f others all) (hk : k < a.frames.length) (hne : k ≠ f)
    (hactive : (a.frame k).isActive = true) :
    (b.ledger.run (b.commitEffects k)).Omits (a.ledger.run (a.commitEffects k))
      (a.frame f).generation others := by
  have hb := h.tidy.sound
  have ha := h.tidy'.sound
  have hgen := h.generation_ne hk hne
  have hpendings := h.pendingMerges_eq hk hne hactive
  rw [commitEffects, commitEffects, hpendings, h.listed_eq hk hne, h.generation_eq, h.config_eq]
  cases hpending : a.pendingMerges k with
  | error e => exact h.ledger.apply_discarded ha hb (h.tidy'.generation_mem hk hactive) hgen
  | ok merges =>
    rw [hpending] at hpendings
    have hmem := h.mem_of_pendingMerges hk hne hpending
    have hadmits := admits_committed h.tidy' hk hactive hpending
    have hadmits' := admits_committed h.tidy (h.lt_length hk) (h.active hactive) hpendings
    rw [h.generation_eq] at hadmits'
    have hcommitted := h.ledger.apply_committed ha hb hadmits hadmits' hgen (List.length_map _)
      (fun o _ => published?_renamed hmem _ o) fun o ho => published?_eq_none_iff.mpr
        fun merge hmerge heq => ho (heq ▸ hmem merge hmerge)
    dsimp only [renamedMerges]
    rw [Ledger.run_cons, Ledger.run_cons]
    cases a.outline.config.gc with
    | manual => exact hcommitted
    | onCommit => exact hcommitted.run_trimmed (ha.apply hadmits) (hb.apply hadmits') _

/-- The commit of another frame has the same result. -/
theorem commitActive (h : b.Omits a f others all) (hk : k < a.frames.length) (hne : k ≠ f)
    (hactive : (a.frame k).isActive = true) :
    (b.commitActive k).1 = renamedOutcome others (a.commitActive k).1 ∧
      (b.commitActive k).2.Omits (a.commitActive k).2 f others all := by
  have hk' := h.lt_length hk
  have hactive' := h.active hactive
  obtain ⟨hresult, hledger, houtline⟩ := commitActive_spec h.tidy' hk hactive
  obtain ⟨hresult', hledger', houtline'⟩ := commitActive_spec h.tidy hk' hactive'
  refine ⟨?_, ?_⟩
  · rw [hresult, hresult', h.commitResult_eq hk hne hactive]
  · refine h.close hk (follows_commitActive h.tidy hk' hactive')
      (follows_commitActive h.tidy' hk hactive) houtline' houtline
      (fun hne => h.stateAfterCommit_eq hk hne hactive) (fun heq => absurd heq hne) ?_
    rw [hledger, hledger']
    exact h.ledger_commitEffects hk hne hactive

/-- The frame loses when it commits, or commits nothing where it did no work. -/
theorem commitActive_own (h : b.Omits a f others all) (hactive : (a.frame f).isActive = true)
    {refusal : Refusal} (hlost : (a.commitActive f).1 = .error refusal) :
    (b.commitActive f).2.Omits (a.commitActive f).2 f others all := by
  have hf := h.opened
  have hf' := h.lt_length hf
  have hactive' := h.active hactive
  obtain ⟨hresult, hledger, houtline⟩ := commitActive_spec h.tidy' hf hactive
  obtain ⟨-, hledger', houtline'⟩ := commitActive_spec h.tidy hf' hactive'
  have hnothing : b.pendingMerges f = .ok [] := by
    rw [pendingMerges, h.own.listed_eq]
    rfl
  rw [hresult, commitResult] at hlost
  rw [commitEffects] at hledger
  rw [stateAfterCommit] at houtline
  rw [commitEffects, hnothing, h.own.listed_eq] at hledger'
  rw [stateAfterCommit, hnothing] at houtline'
  cases hpending : a.pendingMerges f with
  | ok merges =>
    rw [hpending] at hlost
    cases hlost
  | error e =>
    rw [hpending] at hledger houtline
    refine h.close hf (follows_commitActive h.tidy hf' hactive')
      (follows_commitActive h.tidy' hf hactive) houtline' houtline (fun hne => absurd rfl hne)
      (fun _ => ⟨fun hstate => (by cases hstate), fun hstate => (by cases hstate), ?_⟩) ?_
    · rw [hledger]
      exact notMem_of_discarded a f
    · have hclosed : (b.commitActive f).2.ledger =
          b.ledger.apply (.committed (a.frame f).generation []) := by
        rw [hledger', h.generation_eq]
        cases b.outline.config.gc <;> rfl
      rw [hledger, hclosed]
      exact h.ledger.apply_discarded_own h.tidy'.sound (h.tidy'.generation_mem hf hactive) rfl rfl
        fun _ _ => rfl

/-! ## Opening frames and making objects -/

/-- A frame is opened with the same result in both worlds, and lists objects under their new names.
-/
theorem openFrame (h : b.Omits a f others all) (options : FrameOptions) :
    (b.openFrame 0 (options.renamed all)).1 = (a.openFrame 0 options).1 ∧
      (b.openFrame 0 (options.renamed all)).2.Omits (a.openFrame 0 options).2 f others all := by
  have hfull : b.outline.config.maxOpenFrames ≤ b.ledger.table.length ↔
      a.outline.config.maxOpenFrames ≤ a.ledger.table.length := by
    rw [h.config_eq, h.ledger.table_eq]
  by_cases hroom : a.outline.config.maxOpenFrames ≤ a.ledger.table.length
  · rw [openFrame_full options hroom, openFrame_full (options.renamed all) (hfull.mpr hroom),
      h.config_eq]
    exact ⟨rfl, h⟩
  have hroom' := mt hfull.mp hroom
  have hv := follows_openFrame h.tidy (options.renamed all)
  have hu := follows_openFrame h.tidy' options
  rw [if_neg hroom'] at hv
  rw [if_neg hroom] at hu
  obtain ⟨hresult, hledger, houtline⟩ := openFrame_spec h.tidy'.sole options hroom
  obtain ⟨hresult', hledger', houtline'⟩ := openFrame_spec h.tidy.sole (options.renamed all) hroom'
  have hnext : b.nextFrame (options.renamed all) = (a.nextFrame options).renamed all := by
    rw [nextFrame, h.ledger.next_eq, h.ledger.table_eq]
    rfl
  rw [hnext] at houtline'
  refine ⟨by rw [hresult, hresult', h.length_frames], ?_⟩
  generalize (b.openFrame 0 (options.renamed all)).2 = v at *
  generalize (a.openFrame 0 options).2 = u at *
  have hframes : u.frames = a.frames ++ [a.nextFrame options] := congrArg Outline.frames houtline
  have hmirrors : v.Mirrors u f others all := h.toMirrors.addFrame houtline' houtline
  have hframe : u.frame f = a.frame f := by
    rw [frame_of_addFrame hframes, if_neg (Nat.ne_of_lt h.opened)]
  have hpast {g : Generation} (hg : g < a.ledger.next)
      (hopen : g ∈ u.ledger.table.generations) : g ∈ a.ledger.table.generations := by
    rw [hledger] at hopen
    rcases OpenTable.mem_generations_append.mp hopen with hopen | rfl
    · exact hopen
    · exact absurd hg (Nat.lt_irrefl _)
  have hminted := h.ledger.minted
  refine ⟨hmirrors, hv.tidy, hu.tidy, fun hclosed hopen => ?_, fun k hk hne hopen => ?_, ?_⟩
  · rw [hframe] at hclosed hopen
    exact h.closed hclosed (hpast hminted hopen)
  · rw [hframe] at hopen ⊢
    rw [hframes, List.length_append] at hk
    rw [frame_of_addFrame hframes]
    split
    · -- The new frame was opened while the generation was open.
      rw [Bool.eq_false_iff]
      intro hsee
      rcases Visibility.canSee_ofFrame.mp hsee with heq | ⟨-, hclosed⟩
      · exact Nat.ne_of_lt hminted heq
      · exact hclosed (hpast hminted hopen)
    · next hold =>
      exact h.hidden k (Nat.lt_of_le_of_ne (Nat.le_of_lt_succ hk) hold) hne (hpast hminted hopen)
  · rw [hledger, hledger', hframe]
    exact h.ledger.apply_opened

/-- An object that another frame makes, or that is made outside of frames, is one more of the
others. -/
theorem newObject (h : b.Omits a f others all) (hmaking : a.makingFrame? 0 ≠ some f)
    (hnext : Foresees all (others ++ [a.objects.length]) (a.objects.length + 1))
    (typeName : String) (merge : α → α → α → Option α) (initial : α) :
    (b.newObject 0 typeName merge initial).2.Omits (a.newObject 0 typeName merge initial).2 f
      (others ++ [a.objects.length]) all := by
  have hv := follows_newObject h.tidy typeName merge initial
  have hu := follows_newObject h.tidy' typeName merge initial
  have hvoutline := b.outline_newObject typeName merge initial
  have huoutline := a.outline_newObject typeName merge initial
  have hnew : a.objects.length ∉ others := fun hmem => Nat.lt_irrefl _ (h.known _ hmem)
  have hlength : (a.addObject (blankObject typeName merge)).objects.length =
      a.objects.length + 1 := List.length_append
  have hadded := h.toMirrors.addObject (blankObject typeName merge) (hlength.symm ▸ hnext)
  have hvledger := hv.ledger_eq
  have huledger := hu.ledger_eq
  rw [withBlank, h.makingFrame?_eq] at hvoutline
  rw [makingEffect, h.makingFrame?_eq, h.length_objects] at hvledger
  rw [withBlank] at huoutline
  rw [makingEffect] at huledger
  cases hk : a.makingFrame? 0 with
  | none =>
    rw [hk] at hvoutline huoutline hvledger huledger
    have hframes : (a.newObject 0 typeName merge initial).2.frames = a.frames :=
      congrArg Outline.frames huoutline
    refine h.of_follows hv hu (hadded.congr hvoutline huoutline) (by rw [hframes]) (Or.inl ?_) ?_
    · rw [frame, hframes, ← frame]
    · rw [hvledger, huledger]
      exact h.ledger.apply_created hnew initial
  | some k =>
    rw [hk] at hmaking hvoutline huoutline hvledger huledger
    obtain ⟨hlt, -, -⟩ := of_makingFrame? h.tidy' hk
    have hne : k ≠ f := fun heq => hmaking (congrArg some heq)
    have hmem : a.objects.length ∈ others ++ [a.objects.length] :=
      List.mem_append_right _ (List.mem_singleton_self _)
    have hmem' := (hnext.mem_iff (Nat.lt_succ_self _)).mpr hmem
    have hframes : (a.newObject 0 typeName merge initial).2.frames =
        (a.modifyFrame k (Frame.touching a.objects.length)).frames :=
      congrArg Outline.frames huoutline
    rw [h.length_objects, ← idxOf_concat_self hnew, ← hnext.idxOf_eq hmem] at hvoutline
    refine h.of_follows hv hu ?_ ?_ (Or.inl ?_) ?_
    · exact hadded.modifyFrame hlt hvoutline huoutline
        (fun _ => (Frame.renamed_touching hmem' _).symm) fun heq => absurd heq hne
    · rw [hframes, length_frames_modifyFrame]
    · rw [frame, hframes, ← frame, frame_modifyFrame hlt, if_neg hne.symm]
    · dsimp only at hvledger huledger
      rw [h.generation_eq] at hvledger
      rw [hvledger, huledger]
      exact h.ledger.apply_founded hnew (h.generation_ne hlt hne) initial

/-- An object that the frame makes is left out. -/
theorem newObject_own (h : b.Omits a f others all) (hmaking : a.makingFrame? 0 = some f)
    (hnext : Foresees all others (a.objects.length + 1))
    (typeName : String) (merge : α → α → α → Option α) (initial : α) :
    b.Omits (a.newObject 0 typeName merge initial).2 f others all := by
  have hu := follows_newObject h.tidy' typeName merge initial
  have huoutline := a.outline_newObject typeName merge initial
  have hnew : a.objects.length ∉ others := fun hmem => Nat.lt_irrefl _ (h.known _ hmem)
  have hlength : (a.addObject (blankObject typeName merge)).objects.length =
      a.objects.length + 1 := List.length_append
  have hadded := h.toMirrors.addObject_left (blankObject typeName merge) (hlength.symm ▸ hnext)
  have huledger := hu.ledger_eq
  rw [withBlank, hmaking] at huoutline
  rw [makingEffect, hmaking] at huledger
  obtain ⟨hlt, hactive, -⟩ := of_makingFrame? h.tidy' hmaking
  have hframes : (a.newObject 0 typeName merge initial).2.frames =
      (a.modifyFrame f (Frame.touching a.objects.length)).frames :=
    congrArg Outline.frames huoutline
  refine h.of_follows_left hu ?_ ?_ ?_ ?_
  · exact hadded.modifyFrame_left hlt huoutline (fun hne => absurd rfl hne)
      fun _ => h.own.touching _
  · rw [hframes, length_frames_modifyFrame]
  · rw [frame, hframes, ← frame, frame_modifyFrame hlt, if_pos rfl, Frame.touching]
    split <;> rfl
  · rw [huledger]
    exact h.ledger.apply_founded_own hnew (h.tidy'.generation_mem hlt hactive) initial

/-! ## Running inside frames -/

/-- A frame is entered in both worlds or refused in both. -/
theorem enterFrame (h : b.Omits a f others all) (hk : k < a.frames.length) :
    (b.enterFrame k).1 = (a.enterFrame k).1 ∧
      (b.enterFrame k).2.Omits (a.enterFrame k).2 f others all := by
  rw [World.enterFrame, World.enterFrame, h.current_eq]
  cases a.current.filter (· != k) with
  | some j =>
    dsimp only
    rw [h.generation_eq, h.generation_eq]
    exact ⟨rfl, h⟩
  | none =>
    refine ⟨rfl, (h.hold hk).setCurrent fun j hj => ?_⟩
    rw [World.hold, length_frames_modifyFrame]
    exact Option.some.inj hj ▸ hk

/-- A frame is left in both worlds. -/
theorem leaveFrame (h : b.Omits a f others all) (hk : k < a.frames.length) (first : Bool) :
    (b.leaveFrame k first).Omits (a.leaveFrame k first) f others all := by
  refine (h.setCurrent fun j hj => ?_).release hk
  split at hj
  · cases hj
  · exact Option.some.inj hj ▸ hk

/-! ## Reading -/

/-- Another frame reads the same. -/
theorem readableIn_eq (h : b.Omits a f others all) (hk : k < a.frames.length) (hne : k ≠ f)
    (ho : o ∈ others) :
    Answer.record (b.running (readableIn k (others.idxOf o))).1 =
      (Answer.record (a.running (readableIn k o)).1).renamed others := by
  have hselect := h.select?_eq hk hne ho
  rw [h.view_eq] at hselect
  rw [running, running, readableIn_run, readableIn_run, h.isActive_eq, h.view_eq,
    h.generation_eq, h.options_eq hne, h.state_eq hne, hselect, (h.identity o ho).1]
  cases (a.frame k).isActive with
  | false => rfl
  | true => cases a.select? o (a.frame k).view <;> rfl

/-- Unless the frame is current, the same is read. -/
theorem readable_eq (h : b.Omits a f others all) (hcurrent : a.current ≠ some f) (ho : o ∈ others) :
    Answer.record (b.running (readable (others.idxOf o))).1 =
      (Answer.record (a.running (readable o)).1).renamed others := by
  have howner : b.currentFrameOf? (b.object (others.idxOf o)).manager =
      a.currentFrameOf? (a.object o).manager := by
    rw [h.tidy.owner, h.tidy'.owner, h.currentFrameOf?_eq]
  rw [running, running, readable_run, readable_run, howner, h.selectCommitted?_eq ho,
    (h.identity o ho).1]
  cases hreader : a.currentFrameOf? (a.object o).manager with
  | some k =>
    have hk : a.current = some k := (Option.filter_eq_some_iff.mp hreader).1
    exact h.readableIn_eq (h.tidy'.current k hk) (fun heq => hcurrent (heq ▸ hk)) ho
  | none => cases a.selectCommitted? o <;> rfl

/-- Unless the frame is current, the question for a visible record is answered the same. -/
theorem hasVisibleRecord_eq (h : b.Omits a f others all) (hcurrent : a.current ≠ some f)
    (ho : o ∈ others) : b.hasVisibleRecord (others.idxOf o) = a.hasVisibleRecord o := by
  cases hreader : a.current with
  | none =>
    have hreader' : b.current = none := h.current_eq.trans hreader
    simp only [hasVisibleRecord, currentFrameOf?, hreader, hreader', Option.filter_none,
      h.selectCommitted?_eq ho]
  | some k =>
    have hne : k ≠ f := fun heq => hcurrent (heq ▸ hreader)
    rw [hasVisibleRecord_of_current h.tidy (h.current_eq.trans hreader),
      hasVisibleRecord_of_current h.tidy' hreader,
      h.select?_eq (h.tidy'.current k hreader) hne ho]

/-! ## Trimming -/

/-- The same is dropped. -/
theorem collect (h : b.Omits a f others all) (ho : o ∈ others) :
    (b.collect 0 (others.idxOf o)).1 = (a.collect 0 o).1 ∧
      (b.collect 0 (others.idxOf o)).2.Omits (a.collect 0 o).2 f others all := by
  have hv := follows_collect h.tidy (h.made_lt ho)
  have hu := follows_collect h.tidy' (h.known o ho)
  have hvoutline := outline_collect b 0 (others.idxOf o)
  have huoutline := outline_collect a 0 o
  have hframes : (a.collect 0 o).2.frames = a.frames := congrArg Outline.frames huoutline
  obtain ⟨hdropped, hledger⟩ := h.ledger.apply_trimmed h.tidy'.sound h.tidy.sound ho
  refine ⟨hdropped, h.of_follows hv hu (h.toMirrors.congr hvoutline huoutline) (by rw [hframes])
    (Or.inl ?_) ?_⟩
  · rw [frame, hframes, ← frame]
  · rw [hv.ledger_eq, hu.ledger_eq]
    exact hledger

/-- What the frame made is trimmed in the one world alone. -/
theorem collect_made (h : b.Omits a f others all) (ho : o ∉ others) (hmade : o < a.objects.length) :
    b.Omits (a.collect 0 o).2 f others all := by
  have hu := follows_collect h.tidy' hmade
  have huoutline := outline_collect a 0 o
  have hframes : (a.collect 0 o).2.frames = a.frames := congrArg Outline.frames huoutline
  refine h.of_follows_left hu (h.toMirrors.congr rfl huoutline) (by rw [hframes]) ?_ ?_
  · rw [frame, hframes, ← frame]
  · rw [hu.ledger_eq]
    exact h.ledger.apply_trimmed_made h.tidy'.sound ho

end Omits

end World

end VersionedObjects.Store
