import VersionedObjects.Proofs.Store.Bookkeeping
import VersionedObjects.Proofs.Store.Listing

/-!
# Tidy worlds

The bookkeeping that ties frames to the ledger. An open frame has its entry in the open table and
knows every object that it has a record of; generations of frames ascend in the order in which the
frames were opened. Main statement: effects that close no generation of an open frame, and link
records only for objects that their frame knows, leave a world tidy.
-/

namespace VersionedObjects.Store

variable {α : Type}

/-- The generation that an effect closes. -/
def Effect.closes? : Effect α → Option Generation
  | .committed g _ | .discarded g => some g
  | _ => none

/-- The object and the frame's generation for which an effect links a record. -/
def Effect.links? : Effect α → Option (ObjectId × Generation)
  | .founded o g _ => some (o, g)
  | .branched o r => some (o, r.generation)
  | _ => none

/-- The object and the frame's generation for which an effect links a record or stores into one. -/
def Effect.writes? : Effect α → Option (ObjectId × Generation)
  | .stored o g _ => some (o, g)
  | effect => effect.links?

/-- What writes nothing links nothing. -/
theorem Effect.links?_eq_none_of_writes? {effect : Effect α} (h : effect.writes? = none) :
    effect.links? = none := by
  cases effect with
  | stored => rfl
  | _ => exact h

/-- A generation that is open stays open unless the effect closes it. -/
theorem Ledger.mem_table_apply {l : Ledger α} {effect : Effect α}
    {entry : Generation × List Generation} (hentry : entry ∈ l.table)
    (hopen : effect.closes? ≠ some entry.1) : entry ∈ (l.apply effect).table := by
  cases effect with
  | opened => exact List.mem_append_left _ hentry
  | committed g merges =>
    exact OpenTable.mem_without.mpr ⟨hentry, fun h => hopen (congrArg some h.symm)⟩
  | discarded g =>
    exact OpenTable.mem_without.mpr ⟨hentry, fun h => hopen (congrArg some h.symm)⟩
  | _ => exact hentry

/-- The clock never runs back. -/
theorem Ledger.next_le_apply (l : Ledger α) (effect : Effect α) :
    l.next ≤ (l.apply effect).next := by
  cases effect with
  | opened | created => exact Nat.le_succ _
  | committed g merges => exact Nat.le_add_right _ _
  | _ => exact Nat.le_refl _

/-- A record of a generation of the past was there before an effect, unless the effect linked
it. -/
theorem Ledger.Sound.exists_of_mem_apply {l : Ledger α} (hl : l.Sound) {effect : Effect α}
    {o : ObjectId} {r : Record α} (hr : r ∈ ((l.apply effect).chain o).records)
    (hpast : r.generation < l.next) :
    effect.links? = some (o, r.generation) ∨
      ∃ s ∈ (l.chain o).records, s.generation = r.generation := by
  cases effect with
  | opened => exact Or.inr ⟨r, hr, rfl⟩
  | founded p g value =>
    rw [Ledger.apply] at hr
    rcases Ledger.of_mem_modifyChain hr with hold | ⟨rfl, hnew⟩
    · exact Or.inr ⟨r, hold, rfl⟩
    · rw [List.mem_singleton.mp hnew]
      exact Or.inl rfl
  | created p value =>
    rw [Ledger.apply] at hr
    rcases Ledger.of_mem_modifyChain hr with hold | ⟨rfl, hnew⟩
    · exact Or.inr ⟨r, hold, rfl⟩
    · rw [List.mem_singleton.mp hnew] at hpast
      exact absurd hpast (Nat.lt_irrefl _)
  | branched p s =>
    rw [Ledger.apply] at hr
    rcases Ledger.of_mem_modifyChain hr with hold | ⟨rfl, hnew⟩
    · exact Or.inr ⟨r, hold, rfl⟩
    · rcases Chain.eq_or_mem_of_mem_link hnew with rfl | hold
      · exact Or.inl rfl
      · exact Or.inr ⟨r, hold, rfl⟩
  | committed g merges =>
    right
    dsimp only [Ledger.apply] at hr
    cases hpublished : published? l.next merges o with
    | none => exact ⟨r, by simpa [hpublished] using hr, rfl⟩
    | some s =>
      rw [hpublished] at hr
      rcases Chain.eq_or_mem_of_mem_link hr with rfl | hold
      · exact absurd hpast (Nat.not_lt_of_le (of_published? hpublished).2.1)
      · exact ⟨r, Chain.mem_of_mem_unlink hold, rfl⟩
  | discarded g => exact Or.inr (Chain.exists_of_mem_discard hr)
  | trimmed p =>
    rw [Ledger.apply] at hr
    rcases Ledger.of_mem_modifyChain hr with hold | ⟨rfl, hnew⟩
    · exact Or.inr ⟨r, hold, rfl⟩
    · exact Or.inr ⟨r, ((hl.coherent o).ascending.trim_sublist _).subset hnew, rfl⟩
  | stored p g change =>
    rw [Ledger.apply] at hr
    rcases Ledger.of_mem_modifyChain hr with hold | ⟨rfl, hnew⟩
    · exact Or.inr ⟨r, hold, rfl⟩
    · obtain ⟨s, hs, rfl⟩ := Chain.mem_store.mp hnew
      exact Or.inr ⟨s, hs, (s.stored_generation g change).symm⟩

/-- What the bookkeeping says of a frame, given the ledger and the number of objects made. -/
structure Frame.Fits (frame : Frame) (l : Ledger α) (made : Nat) : Prop where
  manager_eq : frame.manager = 0
  minted : frame.generation < l.next
  nodup : frame.touched.Nodup
  made : ∀ o ∈ frame.touched, o < made
  written : ∀ o ∈ frame.written, o ∈ frame.touched
  entry : frame.isActive = true → ∃ invalid,
    frame.view = .ofFrame frame.generation invalid ∧ (frame.generation, invalid) ∈ l.table
  touched : frame.isActive = true → ∀ o, ∀ r ∈ (l.chain o).records,
    r.generation = frame.generation → o ∈ frame.touched

namespace Frame.Fits

variable {frame : Frame} {l : Ledger α} {made : Nat}

/-- A frame of the same generation that touched the same objects fits as well, unless it was
closed and is open. -/
theorem of_eq (h : frame.Fits l made) {other : Frame} (hmanager : other.manager = frame.manager)
    (hview : other.view = frame.view) (htouched : other.touched = frame.touched)
    (hwritten : other.written = frame.written)
    (hactive : other.isActive = true → frame.isActive = true) : other.Fits l made := by
  have hgen : other.generation = frame.generation := congrArg Visibility.generation hview
  refine ⟨hmanager.trans h.manager_eq, hgen ▸ h.minted, htouched ▸ h.nodup, htouched ▸ h.made,
    hwritten ▸ htouched ▸ h.written, fun ha => ?_, fun ha o r hr hrgen => ?_⟩
  · rw [hview, hgen]
    exact h.entry (hactive ha)
  · rw [htouched]
    exact h.touched (hactive ha) o r hr (hrgen.trans hgen)

/-- No object is listed twice. -/
theorem nodup_listed (h : frame.Fits l made) : frame.listed.Nodup :=
  frame.listed_perm.nodup_iff.mpr h.nodup

/-- Every listed object was made. -/
theorem made_listed (h : frame.Fits l made) : ∀ o ∈ frame.listed, o < made :=
  fun o ho => h.made o (mem_listed.mp ho)

/-- A frame may touch an object that was made. -/
theorem touch (h : frame.Fits l made) {o : ObjectId} (ho : o < made)
    (hnew : o ∉ frame.touched) :
    Fits { frame with touched := frame.touched ++ [o] } l made := by
  refine ⟨h.manager_eq, h.minted, ?_, fun p hp => ?_, fun p hp => ?_, h.entry,
    fun ha p r hr hgen => ?_⟩
  · rw [List.nodup_append]
    refine ⟨h.nodup, List.nodup_singleton o, fun p hp q hq => ?_⟩
    rw [List.mem_singleton.mp hq]
    exact fun heq => hnew (heq ▸ hp)
  · rcases List.mem_append.mp hp with hp | hp
    · exact h.made p hp
    · exact List.mem_singleton.mp hp ▸ ho
  · exact List.mem_append_left _ (h.written p hp)
  · exact List.mem_append_left _ (h.touched ha p r hr hgen)

/-- A frame may write an object that it touched. -/
theorem write (h : frame.Fits l made) {o : ObjectId} (ho : o ∈ frame.touched) :
    Fits { frame with written := frame.written ++ [o] } l made :=
  { h with
    written := fun p hp => by
      rcases List.mem_append.mp hp with hp | hp
      · exact h.written p hp
      · exact List.mem_singleton.mp hp ▸ ho }

/-- More objects may be made. -/
theorem mono (h : frame.Fits l made) {more : Nat} (hle : made ≤ more) : frame.Fits l more :=
  { h with made := fun o ho => Nat.lt_of_lt_of_le (h.made o ho) hle }

/-- A frame fits after an effect that does not close it, if open, and links only for objects that
it touched. -/
theorem apply (h : frame.Fits l made) (hl : l.Sound) {effect : Effect α}
    (hopen : frame.isActive = true → effect.closes? ≠ some frame.generation)
    (hlinks : frame.isActive = true → ∀ o, effect.links? = some (o, frame.generation) →
      o ∈ frame.touched) : frame.Fits (l.apply effect) made := by
  refine ⟨h.manager_eq, Nat.lt_of_lt_of_le h.minted (l.next_le_apply effect), h.nodup, h.made,
    h.written, fun ha => ?_, fun ha o r hr hgen => ?_⟩
  · obtain ⟨invalid, hview, hentry⟩ := h.entry ha
    exact ⟨invalid, hview, Ledger.mem_table_apply hentry (hopen ha)⟩
  · rcases hl.exists_of_mem_apply hr (hgen ▸ h.minted) with hlink | ⟨s, hs, hsgen⟩
    · exact hlinks ha o (hgen ▸ hlink)
    · exact h.touched ha o s hs (hsgen.trans hgen)

/-- A frame fits after a run of such effects. -/
theorem run (h : frame.Fits l made) (hl : l.Sound) {effects : List (Effect α)}
    (hadmits : l.AdmitsAll effects)
    (hopen : frame.isActive = true → ∀ effect ∈ effects,
      effect.closes? ≠ some frame.generation)
    (hlinks : frame.isActive = true → ∀ effect ∈ effects, ∀ o,
      effect.links? = some (o, frame.generation) → o ∈ frame.touched) :
    frame.Fits (l.run effects) made := by
  induction effects generalizing l with
  | nil => exact h
  | cons effect rest ih =>
    have hfirst : frame.Fits (l.apply effect) made :=
      h.apply hl (fun ha => hopen ha effect List.mem_cons_self)
        (fun ha => hlinks ha effect List.mem_cons_self)
    exact ih hfirst (hl.apply hadmits.1) hadmits.2
      (fun ha other hother => hopen ha other (List.mem_cons_of_mem _ hother))
      (fun ha other hother => hlinks ha other (List.mem_cons_of_mem _ hother))

end Frame.Fits

namespace World

/-- The world has one manager, its ledger is sound, and its frames fit. -/
structure Tidy (w : World α) : Prop where
  sole : w.managers.length = 1
  sound : w.ledger.Sound
  owner : ∀ o, (w.object o).manager = 0
  current : ∀ f, w.current = some f → f < w.frames.length
  distinct : ∀ f h, f < h → h < w.frames.length →
    (w.frame f).generation < (w.frame h).generation
  fits : ∀ f < w.frames.length, (w.frame f).Fits w.ledger w.objects.length

namespace Tidy

variable {w : World α}

/-- Two frames of one generation are the same. -/
theorem eq_of_generation_eq (hw : w.Tidy) {f h : FrameId} (hf : f < w.frames.length)
    (hh : h < w.frames.length) (heq : (w.frame f).generation = (w.frame h).generation) :
    f = h := by
  rcases Nat.lt_trichotomy f h with hlt | rfl | hlt
  · exact absurd heq (Nat.ne_of_lt (hw.distinct f h hlt hh))
  · rfl
  · exact absurd heq.symm (Nat.ne_of_lt (hw.distinct h f hlt hf))

/-- An open frame has its entry in the open table. -/
theorem entry (hw : w.Tidy) {f : FrameId} (hf : f < w.frames.length)
    (hactive : (w.frame f).isActive = true) : ∃ invalid,
      (w.frame f).view = .ofFrame (w.frame f).generation invalid ∧
        ((w.frame f).generation, invalid) ∈ w.ledger.table :=
  (hw.fits f hf).entry hactive

/-- The generation of an open frame is open. -/
theorem generation_mem (hw : w.Tidy) {f : FrameId} (hf : f < w.frames.length)
    (hactive : (w.frame f).isActive = true) :
    (w.frame f).generation ∈ w.ledger.table.generations := by
  obtain ⟨invalid, _, hentry⟩ := hw.entry hf hactive
  exact OpenTable.mem_generations.mpr ⟨invalid, hentry⟩

/-- A reader of the present sees what is older than the clock and not open. -/
theorem now_eq (hw : w.Tidy) (o : ObjectId) : (w.manager (w.object o).manager).now =
    .snapshot w.ledger.next w.ledger.table.generations := by
  rw [hw.owner, Manager.now_eq]
  rfl

/-- The newest committed record of an object is read off the ledger. -/
theorem selectCommitted?_eq (hw : w.Tidy) (o : ObjectId) :
    w.selectCommitted? o = w.ledger.newest? o := by
  rw [selectCommitted?, hw.now_eq, select?]
  exact Chain.Coherent.select?_snapshot (w.ledger.chain o) _ _

/-! ## What keeps a world tidy -/

/-- A frame may be changed in what neither readers nor the open table depend on, or closed. -/
theorem modifyFrame (hw : w.Tidy) (f : FrameId) {g : Frame → Frame}
    (hview : ∀ frame, (g frame).view = frame.view)
    (hfits : f < w.frames.length → (w.frame f).Fits w.ledger w.objects.length →
      (g (w.frame f)).Fits w.ledger w.objects.length) : (w.modifyFrame f g).Tidy := by
  by_cases hf : f < w.frames.length
  · have hgen (h : FrameId) : ((w.modifyFrame f g).frame h).generation =
        (w.frame h).generation := by
      rw [frame_modifyFrame hf]
      split
      · exact congrArg Visibility.generation (hview _)
      · rfl
    refine ⟨hw.sole, hw.sound, hw.owner, ?_, ?_, ?_⟩
    · rw [length_frames_modifyFrame]
      exact hw.current
    · intro h k hlt hk
      rw [hgen, hgen]
      exact hw.distinct h k hlt (by simpa using hk)
    · intro h hh
      rw [length_frames_modifyFrame] at hh
      rw [frame_modifyFrame hf]
      split
      · next heq => exact heq ▸ hfits hf (hw.fits f hf)
      · exact hw.fits h hh
  · have hsame : w.modifyFrame f g = w := by
      simp [World.modifyFrame, List.modify_eq_self (Nat.le_of_not_lt hf)]
    rwa [hsame]

/-- Effects that close no open frame and link records only for objects that their frame touched
leave the world tidy. -/
theorem of_effects (hw : w.Tidy) {v : World α} {effects : List (Effect α)}
    (houtline : v.outline = w.outline) (hledger : v.ledger = w.ledger.run effects)
    (hadmits : w.ledger.AdmitsAll effects)
    (hopen : ∀ f < w.frames.length, (w.frame f).isActive = true → ∀ effect ∈ effects,
      effect.closes? ≠ some (w.frame f).generation)
    (hlinks : ∀ f < w.frames.length, (w.frame f).isActive = true → ∀ effect ∈ effects, ∀ o,
      effect.links? = some (o, (w.frame f).generation) → o ∈ (w.frame f).touched) :
    v.Tidy := by
  have hids := congrArg Outline.identities houtline
  have hframes : v.frames = w.frames := congrArg Outline.frames houtline
  have hframe (f : FrameId) : v.frame f = w.frame f := by rw [frame, hframes, frame]
  have hcurrent : v.current = w.current := congrArg Outline.current houtline
  refine ⟨?_, ?_, ?_, ?_, ?_, ?_⟩
  · exact (congrArg Outline.managers houtline).trans hw.sole
  · rw [hledger]
    exact hw.sound.run hadmits
  · intro o
    rw [(object_of_identities hids o).1]
    exact hw.owner o
  · rw [hcurrent, hframes]
    exact hw.current
  · intro f h
    rw [hframes, hframe, hframe]
    exact hw.distinct f h
  · intro f hf
    rw [hframes] at hf
    rw [hframe, hledger, length_objects_of_identities hids]
    exact (hw.fits f hf).run hw.sound hadmits (hopen f hf) (hlinks f hf)

/-- A world of the same ledger and the same outline is as tidy. -/
theorem of_eq (hw : w.Tidy) {v : World α} (houtline : v.outline = w.outline)
    (hledger : v.ledger = w.ledger) : v.Tidy :=
  have hrun : v.ledger = w.ledger.run [] := hledger
  hw.of_effects houtline hrun trivial (fun _ _ _ => nofun) (fun _ _ _ => nofun)

end Tidy

/-- A tidy world that came from another one by effects that the ledger of that one admits. -/
structure Follows (v w : World α) (effects : List (Effect α)) : Prop where
  tidy : v.Tidy
  ledger_eq : v.ledger = w.ledger.run effects
  admits : w.ledger.AdmitsAll effects
  keeps : v.outline.Keeps w.outline

namespace Follows

variable {u v w : World α} {effects more : List (Effect α)}

/-- A tidy world follows from itself by no effects. -/
theorem refl (hw : w.Tidy) : Follows w w [] :=
  ⟨hw, rfl, trivial, .refl _⟩

/-- A world of the same ledger and the same outline follows without effects. -/
theorem of_same (hw : w.Tidy) (houtline : v.outline = w.outline) (hledger : v.ledger = w.ledger) :
    Follows v w [] :=
  ⟨hw.of_eq houtline hledger, hledger, trivial, houtline ▸ .refl _⟩

/-- A tidy world of the same ledger follows without effects. -/
theorem of_eq (hv : v.Tidy) (h : v.ledger = w.ledger) (hkeeps : v.outline.Keeps w.outline) :
    Follows v w [] :=
  ⟨hv, h, trivial, hkeeps⟩

/-- An admitted effect that closes and links nothing, and leaves the outline alone. -/
theorem of_effect (hw : w.Tidy) {effect : Effect α} (houtline : v.outline = w.outline)
    (hledger : v.ledger = w.ledger.apply effect) (hadmits : w.ledger.Admits effect)
    (hcloses : effect.closes? = none) (hlinks : effect.links? = none) :
    Follows v w [effect] := by
  have hrun : v.ledger = w.ledger.run [effect] := hledger
  refine ⟨hw.of_effects houtline hrun ⟨hadmits, trivial⟩ ?_ ?_, hrun, ⟨hadmits, trivial⟩,
    houtline ▸ .refl _⟩
  · intro f _ _ other hother
    rw [List.mem_singleton.mp hother, hcloses]
    nofun
  · intro f _ _ other hother
    rw [List.mem_singleton.mp hother, hlinks]
    nofun

/-- To change a frame, as long as it fits, has no effect on the ledger. -/
theorem modifyFrame (hw : w.Tidy) (f : FrameId) {g : Frame → Frame}
    (hview : ∀ frame, (g frame).view = frame.view)
    (hfits : f < w.frames.length → (w.frame f).Fits w.ledger w.objects.length →
      (g (w.frame f)).Fits w.ledger w.objects.length) : Follows (w.modifyFrame f g) w [] :=
  .of_eq (hw.modifyFrame f hview hfits) rfl (.modifyFrame w.outline f hview)

/-- Effects follow one after the other. -/
theorem trans (h : Follows v w effects) (h' : Follows u v more) :
    Follows u w (effects ++ more) := by
  refine ⟨h'.tidy, ?_, ?_, h.keeps.trans h'.keeps⟩
  · rw [h'.ledger_eq, h.ledger_eq, Ledger.run_append]
  · rw [Ledger.admitsAll_append, ← h.ledger_eq]
    exact ⟨h.admits, h'.admits⟩

end Follows

end World

end VersionedObjects.Store
