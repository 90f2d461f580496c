import VersionedObjects.Proofs.Store.CommitOutcome
import VersionedObjects.Proofs.Store.Touching

/-!
# What a frame touched

A commit reports the objects that its frame touched. These are the objects that the frame has a
record of, and those that it was refused to write for want of a record to branch from. No other
refused write leaves anything behind.
-/

namespace VersionedObjects.Store

variable {α : Type}

namespace World

variable {u v w : World α}

/-- Some call of the run is a write of the object in the frame that was refused for want of a
base. -/
def LackedBase (w : World α) (calls : List (Call α)) (f : FrameId) (o : ObjectId) : Prop :=
  w.Occurs (fun v call => v.LacksBase call f o) calls

/-! ## What a frame has a record of -/

/-- A frame that stays open has a record of what it had one of, and of what it makes or writes. -/
theorem holds_step (hw : w.Tidy) {f : FrameId} (hf : f < w.frames.length) {call : Call α}
    (hactive : ((w.step call).frame f).isActive = true) (o : ObjectId) :
    (w.step call).Holds f o ↔ w.Holds f o ∨ w.Writes call f o := by
  have hstep : w.step call = w.after [call] := rfl
  obtain ⟨hview, invalid, -, hopen⟩ := entry_of_active_after hw hf (hstep ▸ hactive)
  rw [← hstep] at hview hopen
  have hgen : ((w.step call).frame f).generation = (w.frame f).generation :=
    congrArg Visibility.generation hview
  have hmine := isSome_find?_step hw hf hopen (o := o)
  rw [Holds, hgen]
  refine ⟨fun hholds => ?_, hmine⟩
  by_cases hwrites : w.Writes call f o
  · exact Or.inr hwrites
  · have hsame := find?_step hw hf hopen hwrites
    left
    rw [Holds]
    exact hsame ▸ hholds

/-- A write that finds or branches its record leaves the frame with it. -/
theorem holds_prepareWrite {f : FrameId} {o : ObjectId} (ho : o < w.objects.length) {r : Record α}
    (h : w.prepareWrite f o = (.ok r, v)) (p : ObjectId) :
    v.Holds f p ↔ w.Holds f p ∨ p = o := by
  have hgen : (v.frame f).generation = (w.frame f).generation :=
    frame_prepareWrite Frame.generation (fun _ _ => rfl) (fun _ _ => rfl) h f
  rw [Holds, Holds, hgen]
  rcases of_prepareWrite h with ⟨-, ⟨hfind, rfl⟩ | ⟨hfind, base, -, hr, rfl⟩⟩
  · rw [object_noteWrite, or_iff_left_of_imp]
    rintro rfl
    rw [hfind]
    rfl
  · have ho' : o < (w.noteWrite f o).objects.length := (length_objects_noteWrite w f o).symm ▸ ho
    rw [modifyChain, object_modifyObject ho', object_noteWrite]
    by_cases hp : p = o
    · subst hp
      have hmem : r ∈ ((w.object p).chain.link r).records :=
        (Chain.mem_link (by rw [hr]; exact hfind)).mpr (Or.inl rfl)
      have hrgen : r.generation = (w.frame f).generation := hr ▸ rfl
      rw [if_pos rfl, iff_true_right (Or.inr rfl), Option.isSome_iff_ne_none, ne_eq,
        Chain.find?_eq_none_iff]
      exact fun hnone => hnone r hmem hrgen
    · rw [if_neg hp, or_iff_left hp]

/-- What the open frames touched is accounted for by the records that they have, and by the objects
that they lacked a base of. -/
structure Accounts (w : World α) (lacked : FrameId → ObjectId → Prop) : Prop where
  known : ∀ f o, lacked f o → f < w.frames.length
  mem_touched : ∀ f < w.frames.length, (w.frame f).isActive = true → ∀ o,
    o ∈ (w.frame f).touched ↔ w.Holds f o ∨ lacked f o

namespace Accounts

variable {lacked : FrameId → ObjectId → Prop}

/-- A new frame has touched nothing, so the account still holds. -/
theorem openFrame (h : w.Accounts lacked) (hw : w.Tidy) (options : FrameOptions) :
    (w.openFrame 0 options).2.Accounts lacked := by
  by_cases hfull : w.outline.config.maxOpenFrames ≤ w.ledger.table.length
  · rwa [openFrame_full options hfull]
  obtain ⟨-, hledger, houtline⟩ := openFrame_spec hw.sole options hfull
  generalize (w.openFrame 0 options).2 = v at hledger houtline
  have hframes : v.frames = w.frames ++ [w.nextFrame options] := congrArg Outline.frames houtline
  have hlength : v.frames.length = w.frames.length + 1 := by simp [hframes]
  have hchain (o : ObjectId) : (v.object o).chain = (w.object o).chain := by
    have hchains : v.ledger.chain = w.ledger.chain := by rw [hledger]; rfl
    exact congrFun hchains o
  refine ⟨fun f o hlacked => ?_, fun f hf hactive o => ?_⟩ <;> rw [hlength] at *
  · exact Nat.lt_succ_of_lt (h.known f o hlacked)
  · rw [Holds, hchain]
    by_cases hold : f < w.frames.length
    · have hframe : v.frame f = w.frame f := by
        simp [frame, hframes, List.getElem?_append_left hold]
      rw [hframe] at hactive ⊢
      exact h.mem_touched f hold hactive o
    · -- The new frame touched nothing, and nobody has a record of its generation.
      obtain rfl : f = w.frames.length :=
        Nat.le_antisymm (Nat.le_of_lt_succ hf) (Nat.le_of_not_lt hold)
      have hframe : v.frame w.frames.length = w.nextFrame options := by simp [frame, hframes]
      have hnone : (w.object o).chain.find? (w.nextFrame options).generation = none :=
        Chain.find?_eq_none_iff.mpr fun r hr => Nat.ne_of_lt ((hw.sound.coherent o).minted r hr)
      rw [hframe, hnone]
      refine iff_of_false List.not_mem_nil ?_
      rintro (hsome | hlacked)
      · cases hsome
      · exact absurd (h.known _ o hlacked) (Nat.lt_irrefl _)

/-- What a call has frames touch is accounted for as well. -/
theorem step (h : w.Accounts lacked) (hw : w.Tidy) (call : Call α) :
    (w.step call).Accounts fun f o => lacked f o ∨ w.LacksBase call f o := by
  by_cases hopens : ∃ options, call = .openFrame options
  · obtain ⟨options, rfl⟩ := hopens
    have hopened := h.openFrame hw options
    have hnone (f : FrameId) (o : ObjectId) : ¬ w.LacksBase (.openFrame options) f o :=
      fun hlacks => nomatch hlacks.1
    simp only [hnone, or_false]
    exact hopened
  · have htouches := touches_step hw fun options heq => hopens ⟨options, heq⟩
    refine ⟨fun f o hlacked => ?_, fun f hf hactive o => ?_⟩
    · rw [htouches.length_eq]
      exact hlacked.elim (h.known f o) (lt_of_lacksBase hw)
    · rw [htouches.length_eq] at hf
      have hopen := htouches.active f hf hactive
      rw [htouches.mem_touched f hf, h.mem_touched f hf hopen, holds_step hw hf hactive]
      tauto

/-- The objects touched in a run are accounted for by records and by the writes of the run that
lacked a base. -/
theorem after (h : w.Accounts lacked) (hw : w.Tidy) (calls : List (Call α)) :
    (w.after calls).Accounts fun f o => lacked f o ∨ w.LackedBase calls f o := by
  induction calls generalizing w lacked with
  | nil =>
    have hnone (f : FrameId) (o : ObjectId) : ¬ w.LackedBase [] f o :=
      not_occurs_nil (p := fun v call => v.LacksBase call f o)
    simp only [hnone, or_false]
    exact h
  | cons call rest ih =>
    have hcons (f : FrameId) (o : ObjectId) : w.LackedBase (call :: rest) f o ↔
        w.LacksBase call f o ∨ (w.step call).LackedBase rest f o :=
      occurs_cons (p := fun v call => v.LacksBase call f o)
    have hrest := ih (h.step hw call) (hw.step call)
    simp only [hcons, ← or_assoc]
    exact hrest

/-- What a frame touched is accounted for when its commit is attempted, by itself or by its observer
in the middle of a write. -/
theorem mem_touched_of_mem_commitsIn (h : w.Accounts lacked) (hw : w.Tidy) {call : Call α}
    {f : FrameId} (hmem : (u, f) ∈ w.commitsIn call) (o : ObjectId) :
    o ∈ (u.frame f).touched ↔ u.Holds f o ∨ lacked f o := by
  obtain ⟨hknown, ⟨rfl, rfl, hactive⟩ | ⟨p, change, hwrites, hclosing, rfl⟩⟩ :=
    of_mem_commitsIn hmem
  · exact h.mem_touched f (hasFrame_iff.mp hknown) hactive o
  · obtain ⟨r, v, hprepare, -⟩ := of_closingOnWrite? hclosing
    rw [hprepare]
    obtain ⟨hf, hp⟩ : f < w.frames.length ∧ p < w.objects.length := by
      cases hwrites with
      | current hcurrent => exact ⟨hw.current f hcurrent, hasObject_iff.mp hknown⟩
      | named =>
        exact (Bool.and_eq_true_iff.mp hknown).imp hasFrame_iff.mp hasObject_iff.mp
    have htouches := (touches_prepareWrite hw hf hprepare).trans_left (touches_tellWrite v f p)
    have hgen : ((v.tellWrite f p).frame f).generation = (v.frame f).generation := by
      rw [frame_tellWrite ((length_frames_prepareWrite hprepare).symm ▸ hf)]
      rfl
    have hholds : (v.tellWrite f p).Holds f o ↔ v.Holds f o := by
      rw [Holds, Holds, hgen]
      rfl
    rw [htouches.mem_touched f hf, hholds, holds_prepareWrite hp hprepare,
      h.mem_touched f hf (of_prepareWrite hprepare).1]
    tauto

end Accounts

/-! ## Runs -/

/-- **Touched objects.** All through a run an open frame has touched, each once, the objects that it
has a record of and those that it was refused to write for want of a record to branch from. The
event of a successful commit lists exactly these objects, each once. A write that is refused so adds
its object to those that the frame touched and wrote, although it leaves every chain alone; any
other refused write leaves every frame alone too. -/
theorem touched_objects (config : Config) (calls : List (Call α)) :
    let w := (start α config).after calls
    (∀ f < w.frames.length, (w.frame f).isActive = true →
      (w.frame f).touched.Nodup ∧
        ∀ o, o ∈ (w.frame f).touched ↔ w.Holds f o ∨ (start α config).LackedBase calls f o) ∧
    (∀ call u f event, (u, f) ∈ w.commitsIn call → (u.commitActive f).1 = .ok event →
      event.changed.Nodup ∧
        ∀ o, o ∈ event.changed ↔ u.Holds f o ∨ (start α config).LackedBase calls f o) ∧
    ∀ call f o violation, w.writer? call = some (f, o) →
      (w.perform call).1 = .record (.error violation) →
      (∀ p, ((w.step call).object p).chain = (w.object p).chain) ∧
      (violation.lacksBase = false → (w.step call).frames = w.frames) ∧
      (violation.lacksBase = true → ∀ h < w.frames.length, ∀ p,
        (p ∈ ((w.step call).frame h).touched ↔ p ∈ (w.frame h).touched ∨ h = f ∧ p = o) ∧
        (p ∈ ((w.step call).frame h).written ↔ p ∈ (w.frame h).written ∨ h = f ∧ p = o)) := by
  have hstart := tidy_start α config
  have hnone : (start α config).Accounts fun _ _ => False := ⟨nofun, nofun⟩
  have haccounts := hnone.after hstart calls
  have hw := hstart.after calls
  simp only [false_or] at haccounts
  dsimp only
  generalize (start α config).after calls = w at haccounts hw
  refine ⟨fun f hf hactive => ⟨(hw.fits f hf).nodup, haccounts.mem_touched f hf hactive⟩, ?_, ?_⟩
  · intro call u f event hmem hok
    obtain ⟨-, hf, hactive, before, after, -, hfollows, -⟩ := attempts_of_mem_commitsIn hw hmem
    have hu := hfollows.tidy
    have hchanged : event.changed = (u.frame f).listed := by
      rw [(commitActive_spec hu hf hactive).1] at hok
      unfold commitResult at hok
      split at hok
      · cases hok
      · exact (Except.ok.inj hok) ▸ rfl
    rw [hchanged]
    simp only [Frame.mem_listed]
    exact ⟨(hu.fits f hf).nodup_listed, haccounts.mem_touched_of_mem_commitsIn hw hmem⟩
  · intro call f o violation hwriter hrefused
    rw [step_of_refused hwriter hrefused]
    refine ⟨fun p => ?_, fun hother => ?_, fun hlacks h hh p => ?_⟩
    · split
      · rw [object_noteWrite]
      · rfl
    · rw [if_neg (by rw [hother]; exact Bool.false_ne_true)]
    · have hanswer : (w.perform call).1.lacksBase = true := by rwa [hrefused]
      have hf := lt_of_lacksBase hw ⟨hwriter, hanswer⟩
      rw [if_pos hlacks]
      exact ⟨(touches_noteWrite hw hf o).mem_touched h hh p, mem_written_noteWrite hf o h p⟩

/-- A frame is opened, writes an older counter, and is refused to write one that was made since. -/
def refusedYounger : List (Call Nat) :=
  [.construct "Counter" (fun _ _ _ => none) 0, .openFrame {},
    .construct "Counter" (fun _ _ _ => none) 0, .writeIn 0 0 (· + 1), .writeIn 0 1 (· + 1)]

/-- A frame touched an object, and reports it as changed, that it has no record of. -/
theorem touched_without_record :
    (¬ ∀ (config : Config) (calls : List (Call Nat)) (f : FrameId) (o : ObjectId),
      let w := (start Nat config).after calls
      f < w.frames.length → (w.frame f).isActive = true →
        (o ∈ (w.frame f).touched ↔ w.Holds f o)) ∧
    ¬ ∀ (config : Config) (calls : List (Call Nat)) (call : Call Nat) (u : World Nat) (f : FrameId)
      (event : CommitEvent), (u, f) ∈ ((start Nat config).after calls).commitsIn call →
        (u.commitActive f).1 = .ok event → ∀ o, o ∈ event.changed ↔ u.Holds f o := by
  constructor
  · intro h
    have htouched := h {} refusedYounger 0 1 (by decide) (by decide)
    exact absurd (htouched.mp (by decide)) (by decide)
  · intro h
    have hchanged := h {} refusedYounger (.commit 0) ((start Nat {}).after refusedYounger) 0
      { generation := 2, changed := [0, 1], merged := [], mergedGenerations := [] }
      (List.mem_singleton_self _) (by decide)
    exact absurd ((hchanged 1).mp (by decide)) (by decide)

/-- The frame has a record of the counter that it wrote, and touched besides the one that it was
refused to write. -/
theorem touched_objects_of_refusal :
    let w := (start Nat {}).after refusedYounger
    (w.frame 0).touched = [0, 1] ∧ w.Holds 0 0 ∧ ¬ w.Holds 0 1 ∧
      (start Nat {}).LackedBase refusedYounger 0 1 := by
  have h := touched_objects {} refusedYounger
  obtain ⟨-, hmem⟩ := h.1 0 (by decide) (by decide)
  have hnot : ¬ ((start Nat {}).after refusedYounger).Holds 0 1 := by decide
  exact ⟨by decide, by decide, hnot, ((hmem 1).mp (by decide)).resolve_left hnot⟩

end World

end VersionedObjects.Store
