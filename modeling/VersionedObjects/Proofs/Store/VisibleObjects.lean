import VersionedObjects.Proofs.Store.WritableFrame

/-!
# Visible objects

What runs inside an open frame, or outside of all frames, finds objects there as long as it only
reads, writes and makes objects: nothing is closed and nothing is taken out of a chain, so an
object that was visible stays visible. Main statements: a read of a visible object is no violation,
nor is a write of one inside an open frame.
-/

namespace VersionedObjects.Store

variable {α : Type}

/-! ## Growing ledgers -/

/-- The effect adds to chains, or changes values in them, at most. -/
def Effect.isGrowth : Effect α → Bool
  | .founded .. | .created .. | .branched .. | .stored .. => true
  | .opened | .committed .. | .discarded _ | .trimmed _ => false

namespace Ledger

/-- Nothing was opened or closed since, and every record is still there. -/
structure Grows (later l : Ledger α) : Prop where
  next : l.next ≤ later.next
  table : later.table = l.table
  record : ∀ o, ∀ r ∈ (l.chain o).records,
    ∃ s ∈ (later.chain o).records, s.generation = r.generation ∧ s.discarded = r.discarded

/-- A ledger grows from itself. -/
theorem Grows.refl (l : Ledger α) : l.Grows l :=
  ⟨Nat.le_refl _, rfl, fun _ r hr => ⟨r, hr, rfl, rfl⟩⟩

/-- What grows from a later ledger grows from the first. -/
theorem Grows.trans {l later latest : Ledger α} (h : later.Grows l) (h' : latest.Grows later) :
    latest.Grows l := by
  refine ⟨Nat.le_trans h.next h'.next, h'.table.trans h.table, fun o r hr => ?_⟩
  obtain ⟨s, hs, hgeneration, hdiscarded⟩ := h.record o r hr
  obtain ⟨t, ht, hgeneration', hdiscarded'⟩ := h'.record o s hs
  exact ⟨t, ht, hgeneration'.trans hgeneration, hdiscarded'.trans hdiscarded⟩

variable {l : Ledger α}

/-- A chain may be changed as long as its records stay. -/
theorem grows_modifyChain {o : ObjectId} {f : Chain α → Chain α}
    (hf : ∀ r ∈ (l.chain o).records, ∃ s ∈ (f (l.chain o)).records,
      s.generation = r.generation ∧ s.discarded = r.discarded) : (l.modifyChain o f).Grows l := by
  refine ⟨Nat.le_refl _, rfl, fun p r hr => ?_⟩
  dsimp only [modifyChain]
  split
  · next hp => exact hp ▸ hf r (hp ▸ hr)
  · exact ⟨r, hr, rfl, rfl⟩

/-- An effect of growth lets the ledger grow. -/
theorem grows_apply {effect : Effect α} (hadmits : l.Admits effect)
    (hgrowth : effect.isGrowth = true) : (l.apply effect).Grows l := by
  cases hadmits with
  | founded hempty =>
    rw [apply]
    exact grows_modifyChain fun r hr => by rw [hempty] at hr; cases hr
  | created hempty =>
    have htick : l.tick.Grows l := ⟨Nat.le_succ _, rfl, fun _ r hr => ⟨r, hr, rfl, rfl⟩⟩
    rw [apply]
    exact htick.trans (grows_modifyChain fun r (hr : r ∈ (l.chain _).records) => by
      rw [hempty] at hr
      cases hr)
  | branched _ hnew =>
    rw [apply]
    exact grows_modifyChain fun r hr => ⟨r, (Chain.mem_link hnew).mpr (.inr hr), rfl, rfl⟩
  | stored o g change =>
    rw [apply]
    exact grows_modifyChain fun r hr =>
      ⟨r.stored g change, Chain.mem_store.mpr ⟨r, hr, rfl⟩, by simp, by simp⟩
  | _ => cases hgrowth

/-- Effects of growth let the ledger grow. -/
theorem grows_run {effects : List (Effect α)} (hadmits : l.AdmitsAll effects)
    (hgrowth : ∀ effect ∈ effects, effect.isGrowth = true) : (l.run effects).Grows l := by
  induction effects generalizing l with
  | nil => exact .refl l
  | cons effect rest ih =>
    have hfirst := grows_apply hadmits.1 (hgrowth effect List.mem_cons_self)
    exact hfirst.trans (ih hadmits.2 fun other hother =>
      hgrowth other (List.mem_cons_of_mem _ hother))

end Ledger

/-! ## What is visible -/

/-- The frame but for what it touched and wrote. -/
def Frame.bare (frame : Frame) : Frame :=
  { frame with touched := [], written := [] }

namespace World

variable {u v w : World α} {o : ObjectId}

/-- What a read right now goes by. -/
def sight (w : World α) : Visibility :=
  match w.current with
  | some f => (w.frame f).view
  | none => .snapshot w.ledger.next w.ledger.table.generations

/-- Inside a frame a read goes by the view of the frame. -/
theorem sight_of_current {f : FrameId} (hf : w.current = some f) : w.sight = (w.frame f).view := by
  rw [sight, hf]

/-- Outside of frames a read goes by what is committed. -/
theorem sight_of_outside (h : w.current = none) :
    w.sight = .snapshot w.ledger.next w.ledger.table.generations := by
  rw [sight, h]

/-- A record is visible if a read right now sees one in the chain. -/
theorem hasVisibleRecord_iff (hw : w.Tidy) : w.hasVisibleRecord o = true ↔
    ∃ r ∈ (w.ledger.chain o).records, r.visibleTo w.sight = true := by
  have hselect : w.hasVisibleRecord o = ((w.ledger.chain o).select? w.sight).isSome := by
    cases hcurrent : w.current with
    | some f =>
      rw [hasVisibleRecord_of_current hw hcurrent, sight_of_current hcurrent]
      rfl
    | none =>
      have hout : w.currentFrameOf? (w.object o).manager = none := by
        rw [currentFrameOf?, hcurrent, Option.filter_none]
      rw [hasVisibleRecord, hout, sight_of_outside hcurrent]
      dsimp only
      rw [selectCommitted?, hw.now_eq]
      rfl
  rw [hselect, Option.isSome_iff_ne_none, Ne, Chain.select?, Chain.newest?_eq_none_iff]
  push Not
  rfl

/-- The world is tidy, and what runs in it runs outside of all frames or inside an open one that was
opened without options. -/
structure AtWork (w : World α) : Prop where
  tidy : w.Tidy
  active : ∀ f, w.current = some f → (w.frame f).isActive = true
  plain : ∀ f, w.current = some f → (w.frame f).options = {}

/-- A world that another one came to by reading, writing and making objects where it was. -/
structure Continues (v w : World α) : Prop where
  tidy : v.Tidy
  current : v.current = w.current
  length : v.frames.length = w.frames.length
  frame : ∀ f, (v.frame f).bare = (w.frame f).bare
  table : v.ledger.table = w.ledger.table
  visible : ∀ o, w.hasVisibleRecord o = true → v.hasVisibleRecord o = true

/-- To touch an object changes nothing of a frame but what it touched. -/
theorem bare_touch (w : World α) (f : FrameId) (o : ObjectId) (h : FrameId) :
    ((w.touch f o).frame h).bare = (w.frame h).bare := by
  by_cases hf : f < w.frames.length
  · rw [touch, frame_modifyFrame hf]
    split
    · split <;> rfl
    · rfl
  · rw [touch, modifyFrame, List.modify_eq_self (Nat.le_of_not_lt hf)]

/-- Making an object changes of the frames only what they touched. -/
theorem newObject_keeps (w : World α) (typeName : String) (merge : α → α → α → Option α)
    (initial : α) :
    (w.newObject 0 typeName merge initial).2.current = w.current ∧
      (w.newObject 0 typeName merge initial).2.frames.length = w.frames.length ∧
      ∀ k, ((w.newObject 0 typeName merge initial).2.frame k).bare = (w.frame k).bare := by
  cases h : w.makingFrame? 0 with
  | some f =>
    rw [newObject_making h]
    exact ⟨rfl, length_frames_modifyFrame .., bare_touch _ f _⟩
  | none =>
    rw [newObject_outside h]
    exact ⟨rfl, rfl, fun _ => rfl⟩

namespace Continues

/-- A tidy world continues from itself. -/
theorem refl (hw : w.Tidy) : w.Continues w :=
  ⟨hw, rfl, rfl, fun _ => rfl, rfl, fun _ => id⟩

/-- What continues from a later world continues from the first. -/
theorem trans (h : v.Continues w) (h' : u.Continues v) : u.Continues w where
  tidy := h'.tidy
  current := h'.current.trans h.current
  length := h'.length.trans h.length
  frame f := (h'.frame f).trans (h.frame f)
  table := h'.table.trans h.table
  visible o ho := h'.visible o (h.visible o ho)

/-- What grows goes on. -/
theorem of_follows (hw : w.Tidy) {effects : List (Effect α)} (h : Follows v w effects)
    (hgrowth : ∀ effect ∈ effects, effect.isGrowth = true) (hcurrent : v.current = w.current)
    (hlength : v.frames.length = w.frames.length)
    (hframe : ∀ f, (v.frame f).bare = (w.frame f).bare) : v.Continues w := by
  have hgrows : v.ledger.Grows w.ledger := h.ledger_eq ▸ Ledger.grows_run h.admits hgrowth
  refine ⟨h.tidy, hcurrent, hlength, hframe, hgrows.table, fun o ho => ?_⟩
  have hsight (g : Generation) (hg : w.sight.canSee g = true) : v.sight.canSee g = true := by
    cases hplace : w.current with
    | some f =>
      have hview : (v.frame f).view = (w.frame f).view := congrArg (·.view) (hframe f)
      rw [sight_of_current hplace] at hg
      rwa [sight_of_current (hcurrent.trans hplace), hview]
    | none =>
      rw [sight_of_outside hplace] at hg
      rw [sight_of_outside (hcurrent.trans hplace), hgrows.table]
      simp only [Visibility.canSee, Visibility.snapshot, Bool.false_and, Bool.false_or,
        Bool.and_eq_true] at hg ⊢
      exact ⟨decide_eq_true (Nat.lt_of_lt_of_le (of_decide_eq_true hg.1) hgrows.next), hg.2⟩
  obtain ⟨r, hr, hvisible⟩ := (hasVisibleRecord_iff hw).mp ho
  obtain ⟨s, hs, hgeneration, hdiscarded⟩ := hgrows.record o r hr
  refine (hasVisibleRecord_iff h.tidy).mpr ⟨s, hs, ?_⟩
  rw [Record.visibleTo, Bool.and_eq_true] at hvisible ⊢
  rw [hgeneration, hdiscarded]
  exact ⟨hvisible.1, hsight _ hvisible.2⟩

end Continues

namespace AtWork

/-- What runs in a world runs on in one that continues from it. -/
theorem continues (hw : w.AtWork) (h : v.Continues w) : v.AtWork := by
  refine ⟨h.tidy, fun f hf => ?_, fun f hf => ?_⟩
  · have hstate : (v.frame f).state = (w.frame f).state := congrArg (·.state) (h.frame f)
    rw [Frame.isActive, hstate]
    exact hw.active f (h.current ▸ hf)
  · have hoptions : (v.frame f).options = (w.frame f).options := congrArg (·.options) (h.frame f)
    rw [hoptions]
    exact hw.plain f (h.current ▸ hf)

/-- Objects may be made and written in the frame that is current. -/
theorem inside (hw : w.AtWork) {f : FrameId} (hf : w.current = some f) : w.Inside 0 f := by
  have hlt := hw.tidy.current f hf
  obtain ⟨invalid, hview, -⟩ := hw.tidy.entry hlt (hw.active f hf)
  exact
    { current := hf
      manager := (hw.tidy.fits f hlt).manager_eq
      active := hw.active f hf
      own := by rw [hview]; rfl
      writable := by rw [hw.plain f hf]
      quiet := by rw [hw.plain f hf] }

/-! ## Announcing and storing -/

/-- The world continues when an object is announced. -/
theorem notifyCreated (hw : w.AtWork) (o : ObjectId) : (w.notifyCreated o).Continues w := by
  obtain ⟨hcurrent, hframes, -⟩ := notifyCreated_keeps w o
  exact .of_follows hw.tidy (follows_notifyCreated hw.tidy o) nofun hcurrent
    (congrArg List.length hframes) fun f => by rw [World.frame, hframes, ← World.frame]

/-- To store into the records of an object that was not made changes nothing. -/
theorem store (hw : w.AtWork) (o : ObjectId) (g : Generation) (change : α → α) :
    (w.store o g change).Continues w := by
  by_cases ho : o < w.objects.length
  · refine .of_follows hw.tidy (follows_store hw.tidy ho g change) (fun effect heffect => ?_) rfl
      rfl fun _ => rfl
    rw [List.mem_singleton.mp heffect]
    rfl
  · have hsame : w.store o g change = w := by
      rw [World.store, modifyChain, modifyObject, List.modify_eq_self (Nat.le_of_not_lt ho)]
    rw [hsame]
    exact .refl hw.tidy

/-! ## Making -/

/-- An object is visible where it is made. -/
theorem newObject (hw : w.AtWork) (typeName : String) (merge : α → α → α → Option α)
    (initial : α) :
    (w.newObject 0 typeName merge initial).2.Continues w ∧
      (w.newObject 0 typeName merge initial).2.hasVisibleRecord w.objects.length = true := by
  obtain ⟨hcurrent, hlength, hbare⟩ := newObject_keeps w typeName merge initial
  have hfollows := follows_newObject hw.tidy typeName merge initial
  generalize (w.newObject 0 typeName merge initial).2 = v at hcurrent hlength hbare hfollows ⊢
  have hcontinues : v.Continues w := by
    refine .of_follows hw.tidy hfollows (fun effect heffect => ?_) hcurrent hlength hbare
    rw [List.mem_singleton.mp heffect, makingEffect]
    split <;> rfl
  have hledger := hfollows.ledger_eq
  refine ⟨hcontinues, (hasVisibleRecord_iff hfollows.tidy).mpr ?_⟩
  cases hplace : w.current with
  | some f =>
    have hinside := hw.inside hplace
    have hview : (v.frame f).view = (w.frame f).view := congrArg (·.view) (hbare f)
    have hmaking : w.makingFrame? 0 = some f := by
      simp [makingFrame?, currentFrameOf?, hplace, Option.filter_some, hinside.manager,
        hinside.active, hinside.writable]
    rw [makingEffect, hmaking] at hledger
    refine ⟨{ generation := (w.frame f).generation, base := none, value := initial }, ?_, ?_⟩
    · simp [hledger, Ledger.apply, Ledger.modifyChain, Chain.singleton]
    · rw [sight_of_current (hcurrent.trans hplace), hview]
      simp [Record.visibleTo, Visibility.canSee, hinside.own, Frame.generation]
  | none =>
    have hmaking : w.makingFrame? 0 = none := by
      simp [makingFrame?, currentFrameOf?, hplace]
    have hclosed := hw.tidy.sound.timely.next_notMem (Nat.le_refl _)
    rw [makingEffect, hmaking] at hledger
    refine ⟨{ generation := w.ledger.next, base := none, value := initial }, ?_, ?_⟩
    · simp [hledger, Ledger.apply, Ledger.modifyChain, Chain.singleton]
    · rw [sight_of_outside (hcurrent.trans hplace), hledger]
      simp [Record.visibleTo, Visibility.canSee, Visibility.snapshot, Ledger.apply,
        Ledger.modifyChain, Ledger.tick, hclosed]

/-! ## Reading and writing -/

/-- A read of a visible object finds a record, and changes nothing. -/
theorem readable (hw : w.AtWork) (ho : w.hasVisibleRecord o = true) :
    ∃ r, (Store.readable o).run w = .ok r w := by
  rw [readable_run]
  rw [hasVisibleRecord] at ho
  cases hplace : w.currentFrameOf? (w.object o).manager with
  | none =>
    rw [hplace] at ho
    obtain ⟨r, hr⟩ := Option.isSome_iff_exists.mp ho
    dsimp only
    rw [hr]
    exact ⟨r, rfl⟩
  | some f =>
    rw [hplace] at ho
    obtain ⟨r, hr⟩ := Option.isSome_iff_exists.mp ho
    have hf : w.current = some f := (Option.filter_eq_some_iff.mp hplace).1
    dsimp only
    rw [readableIn_run, if_pos (hw.active f hf), hr]
    dsimp only
    rw [hw.plain f hf]
    exact ⟨r, rfl⟩

/-- A write of a visible object inside a frame finds the frame's record or branches it. -/
theorem writable (hw : w.AtWork) {f : FrameId} (hf : w.current = some f)
    (ho : w.hasVisibleRecord o = true) :
    ∃ r v, (Store.writable o).run w = .ok r v ∧ v.Continues w := by
  have hinside := hw.inside hf
  have hlt := hw.tidy.current f hf
  have hmade : o < w.objects.length := by
    by_contra hle
    obtain ⟨r, hr, -⟩ := (hasVisibleRecord_iff hw.tidy).mp ho
    have hnil : (w.ledger.chain o).records = [] := chain_eq_nil (Nat.le_of_not_lt hle)
    rw [hnil] at hr
    cases hr
  rw [writable_run, hf]
  dsimp only
  rw [writableIn_run]
  cases hprepare : w.prepareWrite f o with
  | mk result v =>
  cases result with
  | error violation =>
    have hselect := hasVisibleRecord_of_current hw.tidy hf o ▸ ho
    have hown : ((w.frame f).manager != (w.object o).manager) = false := by
      simp [hinside.manager, hw.tidy.owner]
    obtain ⟨base, hbase⟩ := Option.isSome_iff_exists.mp hselect
    unfold World.prepareWrite at hprepare
    dsimp only at hprepare
    rw [hinside.active, hinside.writable, hown, hbase] at hprepare
    simp only [Bool.not_true, Bool.false_eq_true, if_false] at hprepare
    split at hprepare <;> cases hprepare
  | ok r =>
    have hbare (k : FrameId) := frame_prepareWrite Frame.bare (fun _ _ => rfl) (fun _ _ => rfl)
      hprepare k
    have hquiet : v.afterObserver f o = v := by
      have hoptions : (v.frame f).options = (w.frame f).options := congrArg (·.options) (hbare f)
      rw [afterObserver, hoptions, hw.plain f hf]
      rfl
    dsimp only
    rw [hquiet, ite_self]
    refine ⟨r, v, rfl, .of_follows hw.tidy (follows_prepareWrite hw.tidy hlt hmade hprepare)
      (fun effect heffect => ?_) ?_ (length_frames_prepareWrite hprepare) hbare⟩
    · unfold linkEffects at heffect
      split at heffect
      · cases heffect
      · rw [List.mem_singleton.mp heffect]
        rfl
    · exact (congrArg Outline.current (outline_prepareWrite hprepare)).trans
        (current_noteWrite w f o)

end AtWork

end World

end VersionedObjects.Store
