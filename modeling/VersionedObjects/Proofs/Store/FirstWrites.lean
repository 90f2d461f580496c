import VersionedObjects.Proofs.Store.ClosingSteps
import VersionedObjects.Proofs.Store.Publication

/-!
# Reports of first writes

The observer of a frame is told of a write when the frame has not written the object before. A
write counts as made before it is known whether there is a record to branch from, so it may count
although it was refused; but a frame that has nothing to branch from never will, as long as it is
open. So the reports are the objects of the successful writes, each once. Main statement:
`first_writes_reported`.
-/

namespace VersionedObjects.Store

variable {α : Type}

/-- The object of a reported first write. -/
def Event.written? : Event → Option ObjectId
  | .wrote o => some o
  | _ => none

/-! ## Frames without anything to read -/

namespace Ledger

variable {l : Ledger α} {entry : Generation × List Generation} {o : ObjectId}

/-- An open frame that inherits no record of an object inherits none after an effect: a value
that is stored makes no record. -/
theorem Sound.inherited?_apply_eq_none (hl : l.Sound) {effect : Effect α} (h : l.Admits effect)
    (hentry : entry ∈ l.table) (hopen : entry ∈ (l.apply effect).table)
    (hnone : (l.chain o).inherited? l.table.generations (.ofFrame entry.1 entry.2) = none) :
    ((l.apply effect).chain o).inherited? (l.apply effect).table.generations
      (.ofFrame entry.1 entry.2) = none := by
  cases effect with
  | stored p g change =>
    rw [Ledger.apply, modifyChain_chain]
    split
    · rw [Chain.inherited?_store, modifyChain_table, hnone]
      rfl
    · exact hnone
  | _ => rwa [hl.inherited?_apply h hentry hopen (fun _ _ _ heq => by cases heq) o]

/-- A frame that has nothing to branch from goes on having nothing, as long as it is open. -/
theorem Sound.inherited?_run_eq_none (hl : l.Sound) {effects : List (Effect α)}
    (hadmits : l.AdmitsAll effects) (hentry : entry ∈ l.table)
    (hopen : entry ∈ (l.run effects).table)
    (hnone : (l.chain o).inherited? l.table.generations (.ofFrame entry.1 entry.2) = none) :
    ((l.run effects).chain o).inherited? (l.run effects).table.generations
      (.ofFrame entry.1 entry.2) = none := by
  induction effects generalizing l with
  | nil => exact hnone
  | cons effect rest ih =>
    have hnext := hl.timely.minted entry hentry
    have hstay : entry ∈ (l.apply effect).table :=
      mem_table_of_mem_run hopen (Nat.lt_of_lt_of_le hnext (l.next_le_apply effect))
    exact ih (hl.apply hadmits.1) hadmits.2 hstay hopen
      (hl.inherited?_apply_eq_none hadmits.1 hentry hstay hnone)

end Ledger

namespace World

variable {u v w : World α} {f : FrameId} {o : ObjectId}

/-- An open frame that has nothing to read of an object gets nothing to read, unless it writes the
object. -/
theorem select?_step_eq_none (hw : w.Tidy) (hf : f < w.frames.length) {call : Call α}
    (hactive : ((w.step call).frame f).isActive = true) (hwrites : ¬ w.Writes call f o)
    (hnone : w.select? o (w.frame f).view = none) :
    (w.step call).select? o ((w.step call).frame f).view = none := by
  have hstep : w.step call = w.after [call] := rfl
  obtain ⟨hview, invalid, hframe, hopen⟩ := entry_of_active_after hw hf (hstep ▸ hactive)
  rw [← hstep] at hview hopen
  have hgen : ((w.step call).frame f).generation = (w.frame f).generation :=
    congrArg Visibility.generation hview
  have hstay := mem_table_of_mem_after hw (hstep ▸ hopen) (hw.fits f hf).minted
  rw [select?_view hw hframe hstay, Option.or_eq_none_iff] at hnone
  rw [select?_view (hw.step call) (by rw [hgen, hview, hframe]) (hgen.symm ▸ hopen), hgen,
    find?_step hw hf hopen hwrites, hnone.1, Option.none_or]
  have hfollows := follows_step hw call
  rw [hfollows.ledger_eq] at hopen ⊢
  exact hw.sound.inherited?_run_eq_none hfollows.admits hstay hopen hnone.2

/-! ## What is reported and noted -/

/-- From one world to a later one observers were told of the first writes to some objects and of no
others, and frames wrote what is noted and nothing else. -/
structure Reports (v w : World α) (told : List ObjectId) (noted : FrameId → ObjectId → Prop) :
    Prop where
  log : ∃ events, v.log = w.log ++ events ∧ events.filterMap Event.written? = told
  mem_written : ∀ f o, o ∈ (v.frame f).written ↔ o ∈ (w.frame f).written ∨ noted f o
  observed : ∀ f < w.frames.length,
    f < v.frames.length ∧ (v.frame f).options.observed = (w.frame f).options.observed

/-- From one world to a later one no first write was reported or noted. -/
def Quiet (v w : World α) : Prop :=
  v.Reports w [] fun _ _ => False

namespace Reports

variable {told more : List ObjectId} {noted later : FrameId → ObjectId → Prop}

/-- Reports of two steps in a row are those of the first and then those of the second. -/
theorem trans (h : v.Reports w told noted) (h' : u.Reports v more later) :
    u.Reports w (told ++ more) fun f o => noted f o ∨ later f o := by
  obtain ⟨events, hlog, rfl⟩ := h.log
  obtain ⟨others, hlog', rfl⟩ := h'.log
  refine ⟨⟨events ++ others, ?_, List.filterMap_append⟩, fun f o => ?_, fun f hf => ?_⟩
  · rw [hlog', hlog, List.append_assoc]
  · rw [h'.mem_written, h.mem_written, or_assoc]
  · obtain ⟨hv, heq⟩ := h.observed f hf
    obtain ⟨hu, heq'⟩ := h'.observed f hv
    exact ⟨hu, heq'.trans heq⟩

/-- What was noted may be put in another way. -/
theorem congr (h : v.Reports w told noted) (hiff : ∀ f o, noted f o ↔ later f o) :
    v.Reports w told later :=
  { h with mem_written := fun f o => by rw [h.mem_written, hiff] }

/-- What comes after reports and notes nothing more. -/
theorem trans_left (h : v.Reports w told noted) (h' : u.Quiet v) : u.Reports w told noted := by
  simpa using h.trans h'

end Reports

namespace Quiet

/-- Nothing is reported or noted while log and frames stay. -/
theorem of_eq (hlog : v.log = w.log) (hframes : v.frames = w.frames) : v.Quiet w := by
  have hframe (f : FrameId) : v.frame f = w.frame f := by rw [frame, hframes, frame]
  exact ⟨⟨[], by rw [hlog, List.append_nil], rfl⟩, fun f o => by rw [hframe, or_false],
    fun f hf => ⟨hframes ▸ hf, by rw [hframe]⟩⟩

/-- Where nothing happens nothing is reported. -/
theorem refl (w : World α) : w.Quiet w :=
  of_eq rfl rfl

/-- Two quiet steps are quiet together. -/
theorem trans (h : v.Quiet w) (h' : u.Quiet v) : u.Quiet w :=
  h.trans_left h'

/-- To tell observers anything but of a write is quiet. -/
theorem of_tell {event : Event} (hlog : v.log = w.log ++ [event]) (hframes : v.frames = w.frames)
    (hevent : event.written? = none) : v.Quiet w :=
  { of_eq (v := { v with log := w.log }) (w := w) rfl hframes with
    log := ⟨[event], hlog, by simp [hevent]⟩ }

/-- An event that is no write may be told quietly. -/
theorem tell (w : World α) {event : Event} (hevent : event.written? = none) :
    (w.tell event).Quiet w :=
  of_tell rfl rfl hevent

/-- A frame is changed neither in what it wrote nor in being observed. -/
theorem of_modifyFrame (f : FrameId) (g : Frame → Frame) (hlog : v.log = w.log)
    (hframes : v.frames = (w.modifyFrame f g).frames)
    (hwritten : ∀ frame, (g frame).written = frame.written)
    (hobserved : ∀ frame, (g frame).options.observed = frame.options.observed) : v.Quiet w := by
  have hframe (h : FrameId) : v.frame h = w.frame h ∨ v.frame h = g (w.frame h) := by
    rw [frame, hframes, ← frame]
    by_cases hf : f < w.frames.length
    · rw [frame_modifyFrame hf]
      split
      · exact Or.inr rfl
      · exact Or.inl rfl
    · rw [modifyFrame, List.modify_eq_self (Nat.le_of_not_lt hf)]
      exact Or.inl rfl
  refine ⟨⟨[], by rw [hlog, List.append_nil], rfl⟩, fun h o => ?_, fun h hh => ⟨?_, ?_⟩⟩
  · rcases hframe h with heq | heq <;> rw [heq, or_false]
    rw [hwritten]
  · rwa [hframes, length_frames_modifyFrame]
  · rcases hframe h with heq | heq <;> rw [heq]
    rw [hobserved]

/-- A frame may be changed quietly in all but what it wrote and whether it is observed. -/
theorem modifyFrame (w : World α) (f : FrameId) {g : Frame → Frame}
    (hwritten : ∀ frame, (g frame).written = frame.written)
    (hobserved : ∀ frame, (g frame).options.observed = frame.options.observed) :
    (w.modifyFrame f g).Quiet w :=
  of_modifyFrame f g rfl rfl hwritten hobserved

/-- Closing a frame goes in quiet steps. -/
theorem throughClosing : ThroughClosing fun v w : World α => v.Quiet w where
  refl := refl
  trans := trans
  count _ _ _ := of_eq rfl rfl
  closeAll _ _ _ := of_eq rfl rfl
  close w f _ _ := modifyFrame w f (fun _ => rfl) fun _ => rfl
  discardRecord _ _ _ := of_eq rfl rfl
  trimRecords _ _ _ := of_eq rfl rfl
  tell w _ _ := tell w rfl

/-- To discard an open frame reports no write. -/
theorem discardActive (w : World α) (f : FrameId) : (w.discardActive f).Quiet w :=
  throughClosing.discardActive w f

/-- To discard a frame reports no write. -/
theorem discard (w : World α) (f : FrameId) : (w.discard f).Quiet w :=
  throughClosing.discard w f

/-- To let go of a frame reports no write. -/
theorem release (w : World α) (f : FrameId) : (w.release f).Quiet w := by
  have hletGo : (w.letGo f).Quiet w := modifyFrame w f (fun _ => rfl) fun _ => rfl
  rw [World.release, ← letGo]
  split
  · exact hletGo.trans (discard _ f)
  · exact hletGo

/-- To commit a frame reports no write. -/
theorem commitActive (w : World α) (f : FrameId) : (w.commitActive f).2.Quiet w :=
  throughClosing.commitActive w f fun _ _ =>
    throughClosing.publishMerges (fun _ _ _ _ => of_eq rfl rfl) ..

/-- To open a frame reports no write. -/
theorem openFrame (w : World α) (m : ManagerId) (options : FrameOptions) :
    (w.openFrame m options).2.Quiet w := by
  unfold World.openFrame
  dsimp only
  split
  · exact refl w
  · generalize hframe : ({ manager := m, view := _, options } : Frame) = frame
    have hnew : frame.written = [] := by rw [← hframe]
    refine .trans (v := { w with frames := w.frames ++ [frame] }) ?_ (of_eq rfl rfl)
    refine ⟨⟨[], (List.append_nil _).symm, rfl⟩, fun f o => ?_, fun f hf => ⟨?_, ?_⟩⟩
    · rw [or_false, World.frame, World.frame, List.getElem?_append]
      split
      · rfl
      · next hf =>
        -- Neither a new frame nor one that is not there has written anything.
        rw [List.getElem?_eq_none (Nat.le_of_not_lt hf), List.getElem?_singleton]
        split
        · rw [Option.getD_some, hnew]
          rfl
        · rfl
    · exact Nat.lt_of_lt_of_le hf (by simp)
    · rw [World.frame, World.frame, List.getElem?_append_left hf]

/-- To make an object reports no write, although the frame touches it. -/
theorem newObject (w : World α) (typeName : String) (merge : α → α → α → Option α)
    (initial : α) : (w.newObject 0 typeName merge initial).2.Quiet w := by
  cases hmaking : w.makingFrame? 0 with
  | none =>
    rw [newObject_outside hmaking]
    exact of_eq rfl rfl
  | some f =>
    rw [newObject_making hmaking]
    dsimp only
    generalize hadded : w.addObject _ = v
    have hadds : v.Quiet w := hadded ▸ of_eq rfl rfl
    refine hadds.trans (modifyFrame v f (fun frame => ?_) fun frame => ?_) <;> split <;> rfl

/-- To read in a frame reports no write. -/
theorem readableIn (w : World α) (f : FrameId) (o : ObjectId) :
    (w.running (readableIn f o)).2.Quiet w := by
  rw [running, readableIn_run]
  cases (w.frame f).isActive with
  | false => exact refl w
  | true =>
    cases w.select? o (w.frame f).view with
    | none => exact refl w
    | some r =>
      cases hobserved : (w.frame f).options.observed with
      | false => exact refl w
      | true => exact tell w rfl

/-- To read an object reports no write. -/
theorem readable (w : World α) (o : ObjectId) : (w.running (readable o)).2.Quiet w := by
  rw [running, readable_run]
  cases w.currentFrameOf? (w.object o).manager with
  | some f => exact readableIn w f o
  | none => cases w.selectCommitted? o <;> exact refl w

end Quiet

/-! ## Calls -/

/-- Only a write reports or notes anything. -/
theorem quiet_step {call : Call α} (hwrites : ∀ f o change, ¬ w.WritesIn f o change call) :
    (w.step call).Quiet w := by
  cases hknown : w.knows call with
  | false =>
    rw [step, perform, hknown, if_neg Bool.false_ne_true]
    exact .refl w
  | true =>
    have hstep : w.step call = (w.act call).2 := by rw [step, perform, if_pos hknown]
    rw [hstep]
    cases call with
    | openFrame options => exact .openFrame w 0 options
    | commit f =>
      dsimp only [act, World.commit]
      split
      · exact .commitActive w f
      · exact .refl w
    | discard f => exact .discard w f
    | hold f => exact .modifyFrame w f (fun _ => rfl) fun _ => rfl
    | drop f => exact .release w f
    | enter f =>
      dsimp only [act, World.enterFrame]
      split
      · exact .refl w
      · exact .of_modifyFrame f (fun frame => { frame with holders := frame.holders + 1 }) rfl rfl
          (fun _ => rfl) fun _ => rfl
    | leave first =>
      exact Quiet.trans (v := { w with current := if first then none else some (w.current.getD 0) })
        (.of_eq rfl rfl) (.release _ _)
    | construct typeName merge initial => exact .newObject w typeName merge initial
    | announce o =>
      dsimp only [act, World.notifyCreated]
      split
      · exact .refl w
      · exact .of_tell rfl rfl rfl
    | read o => exact .readable w o
    | readIn f o => exact .readableIn w f o
    | hasVisibleRecord o => exact .refl w
    | write o change =>
      cases hcurrent : w.current with
      | none =>
        dsimp only [act]
        rw [writing_writable_none hcurrent]
        exact .refl w
      | some f => exact absurd (.current hcurrent) (hwrites f o change)
    | writeIn f o change => exact absurd .named (hwrites f o change)
    | collect o => exact .of_eq rfl rfl

/-- A noted write reports nothing yet. -/
theorem reports_noteWrite (hf : f < w.frames.length) (o : ObjectId) :
    (w.noteWrite f o).Reports w [] fun h p => h = f ∧ p = o where
  log := ⟨[], by unfold noteWrite; split <;> simp [touch, modifyFrame], rfl⟩
  mem_written := mem_written_noteWrite hf o
  observed h hh := ⟨(length_frames_noteWrite w f o).symm ▸ hh,
    frame_noteWrite (·.options.observed) (fun _ _ => rfl) (fun _ _ => rfl) w f o h⟩

/-- The observer of a frame, if there is one, is told of the write. -/
theorem reports_afterObserver (w : World α) (f : FrameId) (o : ObjectId) :
    (w.afterObserver f o).Reports w (if (w.frame f).options.observed then [o] else [])
      fun _ _ => False := by
  have hquiet : (w.tellWrite f o).Quiet (w.tell (.wrote o)) :=
    .of_modifyFrame f _ rfl rfl (fun _ => rfl) fun frame => frame.options.observed_afterFirstWrite
  have htold : (w.tellWrite f o).Reports w [o] fun _ _ => False :=
    { log := ⟨[.wrote o], rfl, rfl⟩
      mem_written := hquiet.mem_written
      observed := hquiet.observed }
  rw [afterObserver]
  split
  · split
    · exact htold
    · exact htold.trans_left (.commitActive _ f)
    · exact htold.trans_left (.discardActive _ f)
  · exact Quiet.refl w

/-- A write is reported if it is the first one that succeeds, and noted unless it is refused for
another reason than a missing base. -/
theorem reports_writing (hf : f < w.frames.length) (o : ObjectId) (change : α → α) :
    (w.writing (writableIn f o) o change).2.Reports w
      (if (Answer.record (w.writing (writableIn f o) o change).1).hasRecord &&
          !(w.frame f).written.contains o && (w.frame f).options.observed then [o] else [])
      fun h p => (h = f ∧ p = o) ∧
        ((Answer.record (w.writing (writableIn f o) o change).1).hasRecord = true ∨
          (Answer.record (w.writing (writableIn f o) o change).1).lacksBase = true) := by
  have hnoted := reports_noteWrite hf o
  rw [writing_fst, writing, writableIn_run]
  cases hprepare : w.prepareWrite f o with
  | mk result v =>
  cases result with
  | error violation =>
    dsimp only [Answer.hasRecord, Answer.lacksBase]
    rw [eq_of_prepareWrite_error hprepare]
    cases violation.lacksBase with
    | true => exact hnoted.congr fun _ _ => by simp
    | false => exact (Quiet.refl w).congr fun _ _ => by simp
  | ok r =>
    have hlinked : v.Reports w [] fun h p => (h = f ∧ p = o) ∧
        ((Answer.record (.ok r : Except Violation (Record α))).hasRecord = true ∨
          (Answer.record (.ok r : Except Violation (Record α))).lacksBase = true) := by
      have hlog : v.log = (w.noteWrite f o).log := by
        rcases of_prepareWrite hprepare with ⟨-, ⟨-, rfl⟩ | ⟨-, base, -, -, rfl⟩⟩ <;> rfl
      have hframes : v.frames = (w.noteWrite f o).frames :=
        congrArg Outline.frames (outline_prepareWrite hprepare)
      exact (hnoted.trans_left (.of_eq hlog hframes)).congr fun _ _ => by simp [Answer.hasRecord]
    have hobserved : (v.frame f).options.observed = (w.frame f).options.observed :=
      frame_prepareWrite (·.options.observed) (fun _ _ => rfl) (fun _ _ => rfl) hprepare f
    cases hwritten : (w.frame f).written.contains o with
    | true => exact hlinked.trans_left (.of_eq rfl rfl)
    | false =>
      have htold := (hlinked.trans (reports_afterObserver v f o)).congr
        fun _ _ => iff_of_eq (or_false _)
      rw [hobserved] at htold
      exact htold.trans_left (.of_eq rfl rfl)

/-! ## Writes that succeed -/

/-- The object that a call writes in a frame, unless the write is refused. -/
def success? (w : World α) (f : FrameId) (call : Call α) : Option ObjectId :=
  match (w.perform call).1 with
  | .record (.ok _) => ((w.writer? call).filter (·.1 == f)).map (·.2)
  | _ => none

/-- The objects that calls write in a frame, one for each write that is not refused. -/
def successes (w : World α) (f : FrameId) : List (Call α) → List ObjectId
  | [] => []
  | call :: rest => (w.success? f call).toList ++ (w.step call).successes f rest

/-- The first writes of which the observer of a frame is told during a call. -/
def reported (w : World α) (f : FrameId) (call : Call α) : List ObjectId :=
  if (w.writer? call).any (·.1 == f) then
    ((w.step call).log.drop w.log.length).filterMap Event.written?
  else []

/-- The first writes of which the observer of a frame is told during calls. -/
def reports (w : World α) (f : FrameId) : List (Call α) → List ObjectId
  | [] => []
  | call :: rest => w.reported f call ++ (w.step call).reports f rest

/-- The successful writes of two runs in a row are those of the first and then those of the second.
-/
theorem successes_append (w : World α) (f : FrameId) (calls more : List (Call α)) :
    w.successes f (calls ++ more) = w.successes f calls ++ (w.after calls).successes f more := by
  induction calls generalizing w with
  | nil => rfl
  | cons call rest ih => rw [List.cons_append, successes, successes, ih, List.append_assoc,
      after_cons]

/-- The reports of two runs in a row are those of the first and then those of the second. -/
theorem reports_append (w : World α) (f : FrameId) (calls more : List (Call α)) :
    w.reports f (calls ++ more) = w.reports f calls ++ (w.after calls).reports f more := by
  induction calls generalizing w with
  | nil => rfl
  | cons call rest ih => rw [List.cons_append, reports, reports, ih, List.append_assoc, after_cons]

/-- A call that makes or writes an object in a frame writes it, or makes it as the next object. -/
theorem writesIn_of_writer? {call : Call α} (h : w.writer? call = some (f, o)) :
    (∃ change, w.WritesIn f o change call) ∨
      o = w.objects.length ∧
        ∃ typeName merge initial, call = .construct typeName merge initial := by
  cases call with
  | construct typeName merge initial =>
    obtain ⟨g, -, heq⟩ := Option.map_eq_some_iff.mp h
    exact Or.inr ⟨(Prod.mk.inj heq).2.symm, typeName, merge, initial, rfl⟩
  | write p change =>
    obtain ⟨g, hcurrent, heq⟩ := Option.map_eq_some_iff.mp h
    obtain ⟨rfl, rfl⟩ := Prod.mk.inj heq
    exact Or.inl ⟨change, .current hcurrent⟩
  | writeIn g p change =>
    obtain ⟨rfl, rfl⟩ := Prod.mk.inj (Option.some.inj h)
    exact Or.inl ⟨change, .named⟩
  | _ => cases h

/-- A write is answered by the record that was found or branched, or by what refused it. -/
theorem WritesIn.answer {call : Call α} {change : α → α} (h : w.WritesIn f o change call) :
    (w.perform call).1 =
      if w.knows call then .record (w.prepareWrite f o).1 else .unknown := by
  rw [perform]
  split
  · exact h.act_fst
  · rfl

/-- A write succeeds in a call if the call writes the object in the frame and finds its record. -/
theorem success?_eq_some_iff {call : Call α} : w.success? f call = some o ↔
    (∃ change, w.WritesIn f o change call) ∧ (w.perform call).1.hasRecord = true := by
  have hwriter {r : Record α} (hrecord : (w.perform call).1 = .record (.ok r)) :
      w.success? f call = some o ↔ w.writer? call = some (f, o) := by
    rw [success?, hrecord]
    constructor
    · intro h
      obtain ⟨⟨g, p⟩, hfilter, rfl⟩ := Option.map_eq_some_iff.mp h
      obtain ⟨hwriter, heq⟩ := Option.filter_eq_some_iff.mp hfilter
      obtain rfl : g = f := beq_iff_eq.mp heq
      exact hwriter
    · intro h
      simp [h]
  constructor
  · intro h
    obtain ⟨r, hrecord⟩ : ∃ r, (w.perform call).1 = .record (.ok r) := by
      unfold success? at h
      split at h
      · next r hrecord => exact ⟨r, hrecord⟩
      · cases h
    refine ⟨?_, by rw [hrecord]; rfl⟩
    rcases writesIn_of_writer? ((hwriter hrecord).mp h) with hwrites | ⟨-, _, _, _, rfl⟩
    · exact hwrites
    · cases hrecord
  · rintro ⟨⟨change, hwrites⟩, hrecord⟩
    obtain ⟨r, hr⟩ : ∃ r, (w.perform call).1 = .record (.ok r) := by
      rw [hwrites.answer] at hrecord ⊢
      split at hrecord
      · next hknown =>
        rw [if_pos hknown]
        cases hresult : (w.prepareWrite f o).1 with
        | error violation =>
          rw [hresult] at hrecord
          cases hrecord
        | ok r => exact ⟨r, rfl⟩
      · cases hrecord
    exact (hwriter hr).mpr hwrites.writer?_eq

/-- What succeeds as a write is a write. -/
theorem writes_of_success? {call : Call α} (h : w.success? f call = some o) :
    w.Writes call f o := by
  obtain ⟨⟨change, hwrites⟩, hrecord⟩ := success?_eq_some_iff.mp h
  exact ⟨hwrites.writer?_eq, hrecord⟩

/-- A call that writes an object which was there before is a write that succeeds. -/
theorem success?_of_writes {call : Call α} (h : w.Writes call f o) (ho : o < w.objects.length) :
    w.success? f call = some o := by
  refine success?_eq_some_iff.mpr ⟨?_, h.2⟩
  exact (writesIn_of_writer? h.1).resolve_right fun hmade => Nat.ne_of_lt ho hmade.1

/-- A call that writes an object in a frame reports the write if it is the first one that succeeds,
and notes it unless it is refused for another reason than a missing base. -/
theorem reports_step (hw : w.Tidy) {call : Call α} {change : α → α}
    (hwrites : w.WritesIn f o change call) :
    (w.step call).Reports w
      (if (w.perform call).1.hasRecord && !(w.frame f).written.contains o &&
        (w.frame f).options.observed then [o] else [])
      fun h p => w.Writes call h p ∨ w.LacksBase call h p := by
  have hiff (h : FrameId) (p : ObjectId) : w.Writes call h p ∨ w.LacksBase call h p ↔
      (h = f ∧ p = o) ∧
        ((w.perform call).1.hasRecord = true ∨ (w.perform call).1.lacksBase = true) := by
    rw [Writes, LacksBase, ← and_or_left, hwrites.writer?_eq, Option.some.injEq, Prod.mk.injEq,
      @eq_comm _ f, @eq_comm _ o]
  simp only [hiff]
  cases hknown : w.knows call with
  | false =>
    have hperform : w.perform call = (.unknown, w) := by
      rw [perform, hknown, if_neg Bool.false_ne_true]
    rw [step, hperform]
    exact (Quiet.refl w).congr fun _ _ => by simp [Answer.hasRecord, Answer.lacksBase]
  | true =>
    have hf : f < w.frames.length := by
      cases hwrites with
      | current hcurrent => exact hw.current f hcurrent
      | named => exact hasFrame_iff.mp (Bool.and_eq_true_iff.mp hknown).1
    have hact : w.perform call = (.record (w.writing (writableIn f o) o change).1,
        (w.writing (writableIn f o) o change).2) := by
      rw [perform, if_pos hknown]
      cases hwrites with
      | current hcurrent => rw [← writing_writable hcurrent]; rfl
      | named => rfl
    rw [step, hact]
    exact reports_writing hf o change

/-- What a call adds to the log is what it reports. -/
theorem Reports.drop_log {told : List ObjectId} {noted : FrameId → ObjectId → Prop}
    (h : v.Reports w told noted) : (v.log.drop w.log.length).filterMap Event.written? = told := by
  obtain ⟨events, hlog, htold⟩ := h.log
  rw [hlog, List.drop_left, htold]

/-- The observer of a frame is told of a write when it succeeds and the frame has not written the
object before. -/
theorem reported_eq (hw : w.Tidy) (f : FrameId) (call : Call α) : w.reported f call =
    if (w.frame f).options.observed then
      (w.success? f call).toList.filter fun o => !(w.frame f).written.contains o
    else [] := by
  by_cases hwrites : ∃ o change, w.WritesIn f o change call
  · obtain ⟨o, change, hwrites⟩ := hwrites
    have htold := (reports_step hw hwrites).drop_log
    rw [reported, hwrites.writer?_eq, Option.any_some, if_pos (beq_self_eq_true f), htold]
    cases hrecord : (w.perform call).1.hasRecord with
    | true =>
      rw [success?_eq_some_iff.mpr ⟨⟨change, hwrites⟩, hrecord⟩]
      cases (w.frame f).options.observed <;> simp [List.filter_cons]
    | false =>
      have hnone : w.success? f call = none :=
        Option.eq_none_iff_forall_ne_some.mpr fun p hp => by
          rw [(success?_eq_some_iff.mp hp).2] at hrecord
          cases hrecord
      simp [hnone]
  · have hnone : w.success? f call = none :=
      Option.eq_none_iff_forall_ne_some.mpr fun p hp =>
        hwrites ⟨p, (success?_eq_some_iff.mp hp).1⟩
    rw [hnone, Option.toList_none, List.filter_nil, ite_self, reported]
    split
    · next hany =>
      obtain ⟨⟨g, p⟩, hwriter, hg⟩ := Option.any_eq_true _ _ |>.mp hany
      obtain rfl : g = f := beq_iff_eq.mp hg
      rcases writesIn_of_writer? hwriter with hother | ⟨-, _, _, _, rfl⟩
      · exact absurd ⟨p, hother⟩ hwrites
      · exact (quiet_step fun _ _ _ h => by cases h).drop_log
    · rfl

/-- A call has a frame write the object of a write that succeeds or lacks a base, and no other. -/
theorem mem_written_step (hw : w.Tidy) (call : Call α) (f : FrameId) (o : ObjectId) :
    o ∈ ((w.step call).frame f).written ↔
      o ∈ (w.frame f).written ∨ w.success? f call = some o ∨ w.LacksBase call f o := by
  by_cases hwrites : ∃ g p change, w.WritesIn g p change call
  · obtain ⟨g, p, change, hwrites⟩ := hwrites
    have hsuccess : w.Writes call f o ↔ w.success? f call = some o := by
      refine ⟨fun h => success?_eq_some_iff.mpr ⟨⟨change, ?_⟩, h.2⟩, writes_of_success?⟩
      obtain ⟨rfl, rfl⟩ := Prod.mk.inj (Option.some.inj (hwrites.writer?_eq.symm.trans h.1))
      exact hwrites
    rw [(reports_step hw hwrites).mem_written, hsuccess]
  · rw [(quiet_step fun g p change h => hwrites ⟨g, p, change, h⟩).mem_written]
    refine or_congr_right (iff_of_false id ?_)
    rintro (hsuccess | hlacks)
    · obtain ⟨change, h⟩ := (success?_eq_some_iff.mp hsuccess).1
      exact hwrites ⟨f, o, change, h⟩
    · rcases writesIn_of_writer? hlacks.1 with ⟨change, h⟩ | ⟨-, _, _, _, rfl⟩
      · exact hwrites ⟨f, o, change, h⟩
      · cases hlacks.2

/-- A frame that wrote something was opened. -/
theorem lt_of_mem_written (h : o ∈ (w.frame f).written) : f < w.frames.length := by
  by_contra hf
  rw [frame, List.getElem?_eq_none (Nat.le_of_not_lt hf)] at h
  cases h

/-- A write with nothing to branch from is not answered by a record. -/
theorem LacksBase.not_hasRecord {call : Call α} (h : w.LacksBase call f o) :
    ¬ (w.perform call).1.hasRecord = true := by
  intro hrecord
  obtain ⟨-, hlacks⟩ := h
  unfold Answer.hasRecord at hrecord
  split at hrecord
  · next heq => rw [heq] at hlacks; cases hlacks
  · next heq => rw [heq] at hlacks; cases hlacks
  · cases hrecord

/-- A frame is observed as it was opened. -/
theorem observed_step (hw : w.Tidy) (call : Call α) (hf : f < w.frames.length) :
    ((w.step call).frame f).options.observed = (w.frame f).options.observed := by
  by_cases hwrites : ∃ g p change, w.WritesIn g p change call
  · obtain ⟨g, p, change, hwrites⟩ := hwrites
    exact ((reports_step hw hwrites).observed f hf).2
  · exact ((quiet_step fun g p change h => hwrites ⟨g, p, change, h⟩).observed f hf).2

/-! ## Frames and the writes that succeeded -/

/-- A frame wrote the objects for which a write succeeded, and otherwise, while it is open, only
objects of which it has nothing to read. -/
structure Wrought (w : World α) (f : FrameId) (done : List ObjectId) : Prop where
  written : ∀ o ∈ done, o ∈ (w.frame f).written
  blind : ∀ o ∈ (w.frame f).written, o ∉ done → (w.frame f).isActive = true →
    w.select? o (w.frame f).view = none

/-- A write that succeeds is by an open frame that has something to read of the object. -/
theorem of_success? (hw : w.Tidy) {call : Call α} (h : w.success? f call = some o) :
    f < w.frames.length ∧ (w.frame f).isActive = true ∧
      w.select? o (w.frame f).view ≠ none := by
  have hwrote := writes_of_success? h
  obtain ⟨⟨change, hwrites⟩, hrecord⟩ := success?_eq_some_iff.mp h
  have hf := lt_of_writes hw hwrote
  have hactive := active_of_writes hw hwrote
  refine ⟨hf, hactive, fun hnone => ?_⟩
  obtain ⟨invalid, hview, hentry⟩ := hw.entry hf hactive
  have hselect := select?_view hw hview hentry o
  rw [hnone, eq_comm, Option.or_eq_none_iff] at hselect
  rw [hwrites.answer] at hrecord
  split at hrecord
  · cases hprepare : w.prepareWrite f o with
    | mk result v =>
    cases result with
    | error violation =>
      rw [hprepare] at hrecord
      cases hrecord
    | ok r =>
      rcases (of_prepareWrite hprepare).2 with ⟨hfind, -⟩ | ⟨-, base, hbase, -⟩
      · exact Option.some_ne_none r (hfind.symm.trans hselect.1)
      · exact Option.some_ne_none base (hbase.symm.trans hnone)
  · cases hrecord

/-- A write that lacks a base is by a frame that has nothing to read of the object. -/
theorem select?_of_lacksBase {call : Call α} (h : w.LacksBase call f o) :
    w.select? o (w.frame f).view = none := by
  obtain ⟨hwriter, hlacks⟩ := h
  rcases writesIn_of_writer? hwriter with ⟨change, hwrites⟩ | ⟨-, _, _, _, rfl⟩
  · rw [hwrites.answer] at hlacks
    split at hlacks
    · unfold prepareWrite at hlacks
      dsimp only at hlacks
      repeat' split at hlacks
      all_goals first | assumption | cases hlacks
    · cases hlacks
  · cases hlacks

namespace Wrought

variable {done : List ObjectId} {call : Call α}

/-- Of the writes that succeed, those are the first ones whose object the frame has not written. -/
theorem mem_written_iff (h : w.Wrought f done) (hw : w.Tidy)
    (hsuccess : w.success? f call = some o) : o ∈ (w.frame f).written ↔ o ∈ done := by
  obtain ⟨-, hactive, hselect⟩ := of_success? hw hsuccess
  refine ⟨fun hmem => ?_, h.written o⟩
  by_contra hnot
  exact hselect (h.blind o hmem hnot hactive)

/-- What a frame wrote after a call is what it had written and what the call wrote. -/
theorem step (h : w.Wrought f done) (hw : w.Tidy) (call : Call α) :
    (w.step call).Wrought f (done ++ (w.success? f call).toList) := by
  refine ⟨fun o ho => ?_, fun o ho hnot hactive => ?_⟩
  · rw [mem_written_step hw]
    rcases List.mem_append.mp ho with ho | ho
    · exact Or.inl (h.written o ho)
    · exact Or.inr (Or.inl (Option.mem_toList.mp ho))
  · rw [List.mem_append, Option.mem_toList, not_or] at hnot
    rcases (mem_written_step hw call f o).mp ho with ho | hsuccess | hlacks
    · have hf := lt_of_mem_written ho
      have hmade := (hw.fits f hf).made o ((hw.fits f hf).written o ho)
      have hother : ¬ w.Writes call f o := fun hwrites =>
        hnot.2 (success?_of_writes hwrites hmade)
      exact select?_step_eq_none hw hf hactive hother
        (h.blind o ho hnot.1 (active_of_active_step hw hf hactive))
    · exact absurd hsuccess hnot.2
    · have hrefused : ¬ w.Writes call f o := fun hwrites => hlacks.not_hasRecord hwrites.2
      exact select?_step_eq_none hw (lt_of_lacksBase hw hlacks) hactive hrefused
        (select?_of_lacksBase hlacks)

/-- What the observer of a frame is told of is the object of a write that succeeds, if none for the
object did before. -/
theorem reported_eq (h : w.Wrought f done) (hw : w.Tidy) : w.reported f call =
    if (w.frame f).options.observed then
      (w.success? f call).toList.removeAll done
    else [] := by
  rw [World.reported_eq hw, List.removeAll]
  congr 1
  refine List.filter_congr fun o ho => ?_
  rw [Option.mem_toList] at ho
  rw [Bool.eq_iff_iff]
  simp [h.mem_written_iff hw ho]

end Wrought

/-! ## Runs -/

/-- One more object is added to those that were told, unless it is among them. -/
theorem nodup_eraseDups_append {done : List ObjectId} (h : done.eraseDups.Nodup)
    (last : Option ObjectId) :
    (done.eraseDups ++ last.toList.removeAll done).Nodup ∧
      done.eraseDups ++ last.toList.removeAll done = (done ++ last.toList).eraseDups := by
  rw [List.eraseDups_append]
  cases last with
  | none => simpa [List.removeAll] using h
  | some o =>
    by_cases ho : o ∈ done
    · simpa [List.removeAll, ho] using h
    · refine ⟨List.nodup_append.mpr ⟨h, ?_, fun p hp q hq heq => ?_⟩, ?_⟩
      · simp [List.removeAll, ho]
      · obtain rfl : q = o := by simpa [List.removeAll, ho] using hq
        exact ho (List.mem_eraseDups.mp (heq ▸ hp))
      · simp [List.removeAll, ho, List.eraseDups_cons]

/-- All through a run a frame wrote what its writes that succeeded account for, and its observer was
told of each of their objects once, in the order of the first ones. -/
theorem wrought_after (config : Config) (calls : List (Call α)) (f : FrameId) :
    let start := start α config
    (start.after calls).Wrought f (start.successes f calls) ∧
      (start.successes f calls).eraseDups.Nodup ∧
      start.reports f calls = if ((start.after calls).frame f).options.observed then
        (start.successes f calls).eraseDups else [] := by
  intro start
  induction calls using List.reverseRecOn with
  | nil =>
    refine ⟨⟨nofun, fun o ho => ?_⟩, List.nodup_nil, (ite_self _).symm⟩
    exact absurd (lt_of_mem_written ho) (Nat.not_lt_zero f)
  | append_singleton calls call ih =>
    obtain ⟨hwrought, hnodup, hreports⟩ := ih
    have hw := (tidy_start α config).after calls
    have hstep : start.after (calls ++ [call]) = (start.after calls).step call :=
      after_append _ calls [call]
    rw [successes_append, reports_append, hstep]
    simp only [successes, reports, List.append_nil]
    rw [hreports, hwrought.reported_eq hw]
    obtain ⟨hnodup', heq⟩ := nodup_eraseDups_append hnodup ((start.after calls).success? f call)
    refine ⟨hwrought.step hw call, heq ▸ hnodup', ?_⟩
    by_cases hf : f < (start.after calls).frames.length
    · rw [observed_step hw call hf]
      split
      · exact heq
      · rfl
    · -- A frame that is not there yet has written nothing, and no write of it succeeds.
      have hdone : start.successes f calls = [] :=
        List.eq_nil_iff_forall_not_mem.mpr fun o ho =>
          hf (lt_of_mem_written (hwrought.written o ho))
      have hnone : (start.after calls).success? f call = none :=
        Option.eq_none_iff_forall_ne_some.mpr fun o ho => hf (of_success? hw ho).1
      simp [hdone, hnone, List.removeAll]

/-- **Reports of first writes.** All through a run the observer of a frame, if it has one, has been
told of the objects for which a write of the frame succeeded, each once and in the order of the
first writes that did, whether an object was made in the frame or before. A call other than a write
adds nothing to what any observer is told of writes. -/
theorem first_writes_reported (config : Config) (calls : List (Call α)) :
    let start := start α config
    let w := start.after calls
    (∀ f, (start.reports f calls).Nodup ∧
      start.reports f calls =
        if (w.frame f).options.observed then (start.successes f calls).eraseDups else []) ∧
    (∀ f, (w.frame f).options.observed = true →
      ∀ o, o ∈ start.reports f calls ↔ o ∈ start.successes f calls) ∧
    ∀ call, (∀ f o change, ¬ w.WritesIn f o change call) →
      ∃ events, (w.step call).log = w.log ++ events ∧ ∀ o, .wrote o ∉ events := by
  intro start w
  refine ⟨fun f => ?_, fun f hobserved o => ?_, fun call hwrites => ?_⟩
  · obtain ⟨-, hnodup, hreports⟩ := wrought_after config calls f
    refine ⟨?_, hreports⟩
    rw [hreports]
    split
    · exact hnodup
    · exact List.nodup_nil
  · obtain ⟨-, -, hreports⟩ := wrought_after config calls f
    rw [hreports, if_pos hobserved, List.mem_eraseDups]
  · obtain ⟨events, hlog, htold⟩ := (quiet_step hwrites).log
    refine ⟨events, hlog, fun o ho => ?_⟩
    rw [List.filterMap_eq_nil_iff] at htold
    exact Option.some_ne_none o (htold _ ho)

/-- An observed frame is refused to write a counter that was made after it was opened. It then makes
one, writes it twice, and writes an older one in between, as another frame does. -/
def observedWrites : List (Call Nat) :=
  [.construct "Counter" (fun _ _ _ => none) 0, .openFrame { observed := true }, .openFrame {},
    .construct "Counter" (fun _ _ _ => none) 0, .writeIn 0 1 (· + 1), .enter 0,
    .construct "Counter" (fun _ _ _ => none) 0, .write 2 (· + 1), .write 0 (· + 1),
    .write 2 (· + 1), .read 2, .leave true, .writeIn 1 0 (· + 1), .writeIn 0 1 (· + 1)]

/-- The counter made inside and the older one are reported, each once, and the refused one is
not, although the frame counts it as written. -/
theorem first_writes_reported_of_refusal :
    (start Nat {}).reports 0 observedWrites = [2, 0] ∧
      (start Nat {}).successes 0 observedWrites = [2, 0, 2] ∧
      (((start Nat {}).after observedWrites).frame 0).written = [1, 2, 0] ∧
      (start Nat {}).reports 1 observedWrites = [] := by
  obtain ⟨hreports, -, -⟩ := first_writes_reported {} observedWrites
  have hsuccesses : (start Nat {}).successes 0 observedWrites = [2, 0, 2] := by decide
  exact ⟨(hreports 0).2.trans (by rw [hsuccesses]; decide), hsuccesses, by decide,
    (hreports 1).2.trans (if_neg (by decide))⟩

end World

end VersionedObjects.Store
