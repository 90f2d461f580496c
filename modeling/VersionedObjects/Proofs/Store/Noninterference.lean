import VersionedObjects.Proofs.Store.Making
import VersionedObjects.Proofs.Store.OmittedWrites

/-!
# Uncommitted work leaves no trace

A run in which a frame writes and makes objects, and is at last discarded, is repeated without the
frame's work: what it writes and makes is left out, and everything else is asked for again. Every
other frame, and everybody outside of frames, is answered the same, and once the frame is closed the
chains of all objects that it did not make are the same. The two runs are compared call by call: a
call that is part of the frame's work changes the one world alone, any other call changes both.
-/

namespace VersionedObjects.Store

variable {α : Type}

namespace World

variable {a b w : World α} {f k : FrameId} {o : ObjectId} {others all : List ObjectId}
  {call : Call α}

/-- The call is part of the work of a frame: a write of the frame, or the making of an object inside
it. -/
def isWorkOf (w : World α) (f : FrameId) : Call α → Bool
  | .write _ _ => w.current == some f
  | .writeIn k _ _ => k == f
  | .construct .. => w.makingFrame? 0 == some f
  | _ => false

/-- The answer to the call is one to a frame: the call is part of its work, reads in it or commits
it. -/
def answersTo (w : World α) (f : FrameId) : Call α → Bool
  | .read _ | .hasVisibleRecord _ => w.current == some f
  | .readIn k _ | .commit k => k == f
  | call => w.isWorkOf f call

/-- The others and the object that a call makes. -/
def withMade (w : World α) (others : List ObjectId) : Call α → List ObjectId
  | .construct .. => others ++ [w.objects.length]
  | _ => others

/-- The others and the objects that are made in a run, but not by a frame. -/
def bystanders (f : FrameId) : World α → List ObjectId → List (Call α) → List ObjectId
  | _, others, [] => others
  | w, others, call :: rest =>
    bystanders f (w.step call) (if w.isWorkOf f call then others else w.withMade others call) rest

/-- The run without the work of a frame, with the objects renamed. -/
def leftOut (f : FrameId) (others : List ObjectId) : World α → List (Call α) → List (Call α)
  | _, [] => []
  | w, call :: rest =>
    if w.isWorkOf f call then leftOut f others (w.step call) rest
    else call.renamed others :: leftOut f others (w.step call) rest

/-- The world in which frames list the objects in the same order under their new names. -/
def relisted (others : List ObjectId) (w : World α) : World α :=
  { w with frames := w.frames.map fun frame =>
      { frame with options := frame.options.renamed others } }

/-- Whoever is among others at the end of a run was so before it or is made in it. -/
theorem Tidy.foresees_bystanders (hw : w.Tidy) (f : FrameId) (others : List ObjectId)
    (calls : List (Call α)) :
    Foresees (w.bystanders f others calls) others w.objects.length := by
  induction calls generalizing w others with
  | nil => exact .refl others _
  | cons call rest ih =>
    rw [bystanders]
    have hle := length_objects_le_step hw call
    obtain ⟨later, heq, hlater⟩ := ih (hw.step call)
      (if w.isWorkOf f call then others else w.withMade others call)
    rw [heq]
    have hlater' : ∀ o ∈ later, w.objects.length ≤ o :=
      fun o ho => Nat.le_trans hle (hlater o ho)
    split
    · exact ⟨later, rfl, hlater'⟩
    · cases call with
      | construct typeName merge initial =>
        refine ⟨w.objects.length :: later, List.append_assoc .., fun o ho => ?_⟩
        rcases List.mem_cons.mp ho with rfl | ho
        · exact Nat.le_refl _
        · exact hlater' o ho
      | _ => exact ⟨later, rfl, hlater'⟩

/-- A call that is not answered to a frame is no work of the frame. -/
theorem isWorkOf_of_answersTo (h : w.answersTo f call = false) : w.isWorkOf f call = false := by
  cases call <;> first | exact h | rfl

/-- Only what is answered to a frame attempts a commit of it. -/
theorem answersTo_of_mem_commitsIn {v : World α} (h : (v, f) ∈ w.commitsIn call) :
    w.answersTo f call = true := by
  obtain ⟨-, ⟨rfl, -, -⟩ | ⟨o, change, hwrites, -, -⟩⟩ := of_mem_commitsIn h
  · exact beq_self_eq_true f
  · cases hwrites with
    | current hcurrent => exact beq_iff_eq.mpr hcurrent
    | named => exact beq_self_eq_true f

/-- A call that names an object which was not made is not known. -/
theorem knows_eq_false (hobject : call.object? = some o) (ho : w.hasObject o = false) :
    w.knows call = false := by
  cases call <;> simp_all [Call.object?, knows]

/-- A call about an object makes none. -/
theorem withMade_of_object? (hobject : call.object? = some o) (others : List ObjectId) :
    w.withMade others call = others := by
  cases call <;> first | rfl | cases hobject

/-- A renamed call is about the object under its new name. -/
theorem object?_renamed (others : List ObjectId) (call : Call α) :
    (call.renamed others).object? = call.object?.map others.idxOf := by
  cases call <;> rfl

namespace Omits

/-! ## Calls -/

/-- The work of the frame is left out. -/
theorem step_work (h : b.Omits a f others all) (hwork : a.isWorkOf f call = true)
    (hnext : Foresees all others (a.step call).objects.length) :
    b.Omits (a.step call) f others all := by
  rw [length_objects_step h.tidy'] at hnext
  rw [World.step, World.perform]
  split
  swap
  · exact h
  next hknown =>
  cases call with
  | construct typeName merge initial =>
    exact h.newObject_own (beq_iff_eq.mp hwork) hnext typeName merge initial
  | write o change =>
    have hcurrent : a.current = some f := beq_iff_eq.mp hwork
    dsimp only [act]
    rw [writing_writable hcurrent]
    exact h.writing_own (hasObject_iff.mp hknown) change
  | writeIn k o change =>
    obtain rfl : k = f := beq_iff_eq.mp hwork
    exact h.writing_own (hasObject_iff.mp (Bool.and_eq_true_iff.mp hknown).2) change
  | _ => cases hwork

/-- Reads change nothing that matters. -/
theorem read_left (h : b.Omits a f others all) (o : ObjectId) :
    b.Omits (a.running (readable o)).2 f others all :=
  h.congr_left (a.outline_readable o) (follows_readable h.tidy' o).ledger_eq

/-- A read on the left only, whose result nobody looks at, leaves the worlds in step. -/
theorem readIn_left (h : b.Omits a f others all) (k : FrameId) (o : ObjectId) :
    b.Omits (a.running (readableIn k o)).2 f others all :=
  h.congr_left (a.outline_readableIn k o) (follows_readableIn h.tidy' k o).ledger_eq

/-- A call that names what the frame made is not answered where the frame made nothing, and is left
out. -/
theorem step_made (h : b.Omits a f others all) (hwork : a.isWorkOf f call = false)
    (hobject : call.object? = some o) (ho : o ∉ others) :
    b.step (call.renamed all) = b ∧ b.Omits (a.step call) f others all := by
  have hunknown := h.hasObject_of_notMem ho
  constructor
  · have hrenamed : (call.renamed all).object? = some (all.idxOf o) := by
      rw [object?_renamed, hobject, Option.map_some]
    rw [World.step, World.perform, knows_eq_false hrenamed hunknown, if_neg Bool.false_ne_true]
  · rw [World.step, World.perform]
    split
    swap
    · exact h
    next hknown =>
    cases call with
    | announce p => exact h.congr_left (outline_notifyCreated a p) (ledger_notifyCreated a p)
    | read p => exact h.read_left p
    | readIn k p => exact h.readIn_left k p
    | hasVisibleRecord p => exact h
    | write p change =>
      obtain rfl : p = o := Option.some.inj hobject
      dsimp only [act]
      cases hcurrent : a.current with
      | none =>
        rw [writing_writable_none hcurrent]
        exact h
      | some k =>
        have hne : k ≠ f := by
          rintro rfl
          simp [isWorkOf, hcurrent] at hwork
        rw [writing_writable hcurrent]
        exact h.writing_made (h.tidy'.current k hcurrent) hne ho (hasObject_iff.mp hknown) change
    | writeIn k p change =>
      obtain rfl : p = o := Option.some.inj hobject
      obtain ⟨hk, hmade⟩ := Bool.and_eq_true_iff.mp hknown
      have hne : k ≠ f := by simpa [isWorkOf] using hwork
      exact h.writing_made (hasFrame_iff.mp hk) hne ho (hasObject_iff.mp hmade) change
    | collect p =>
      obtain rfl : p = o := Option.some.inj hobject
      exact h.collect_made ho (hasObject_iff.mp hknown)
    | _ => cases hobject

/-- The two worlds know the same calls, each under its own names. -/
theorem knows_eq (h : b.Omits a f others all) (hobject : ∀ o, call.object? = some o → o ∈ others) :
    b.knows (call.renamed all) = a.knows call := by
  cases call with
  | announce o | read o | hasVisibleRecord o | write o change | collect o =>
    exact h.hasObject_eq (hobject o rfl)
  | readIn k o | writeIn k o change =>
    exact congrArg₂ (· && ·) (h.hasFrame_eq k) (h.hasObject_eq (hobject o rfl))
  | commit k | discard k | hold k | drop k | enter k => exact h.hasFrame_eq k
  | leave first => exact congrArg Option.isSome h.current_eq
  | _ => rfl

/-- The commit of another frame is answered the same, and the frame's own commit closes it in both
worlds. -/
theorem commit (h : b.Omits a f others all) (hk : k < a.frames.length)
    (hlost : k = f → (a.frame f).isActive = true →
      ∃ refusal, (a.commitActive f).1 = .error refusal) :
    (k ≠ f → (Answer.committed (b.commit k).1 : Answer α) =
        (Answer.committed (a.commit k).1).renamed others) ∧
      (b.commit k).2.Omits (a.commit k).2 f others all := by
  rw [World.commit, World.commit, h.isActive_eq, h.generation_eq]
  dsimp only
  split
  · next hactive =>
    by_cases heq : k = f
    · subst heq
      obtain ⟨refusal, hrefusal⟩ := hlost rfl hactive
      exact ⟨fun hne => absurd rfl hne, h.commitActive_own hactive hrefusal⟩
    · obtain ⟨hresult, homits⟩ := h.commitActive hk heq hactive
      refine ⟨fun _ => ?_, homits⟩
      dsimp only
      rw [hresult]
      rfl
  · refine ⟨fun hne => ?_, h⟩
    rw [h.state_eq hne]
    rfl

/-- A call that is not part of the frame's work and names nothing that the frame made is answered
the same, unless it is answered to the frame, and changes both worlds alike. -/
theorem perform (h : b.Omits a f others all) (hwork : a.isWorkOf f call = false)
    (hobject : ∀ o, call.object? = some o → o ∈ others)
    (hlost : ∀ attempt ∈ a.commitsIn call, attempt.2 = f →
      ∃ refusal, outcome attempt = .error refusal) :
    (a.answersTo f call = false →
      (b.perform (call.renamed all)).1 = (a.perform call).1.renamed others) ∧
    (Foresees all (a.withMade others call) (a.step call).objects.length →
      (b.step (call.renamed all)).Omits (a.step call) f (a.withMade others call) all) := by
  have hknows := h.knows_eq hobject
  have hlength := length_objects_step h.tidy' call
  rw [hlength]
  unfold World.step World.perform
  rw [hknows]
  cases hknown : a.knows call with
  | false =>
    have hsame : a.withMade others call = others := by
      cases call <;> first | rfl | cases hknown
    rw [hsame]
    exact ⟨fun _ => rfl, fun _ => h⟩
  | true =>
  rw [if_pos rfl, if_pos rfl]
  cases call with
  | openFrame options =>
    obtain ⟨hresult, homits⟩ := h.openFrame options
    exact ⟨fun _ => congrArg Answer.opened hresult, fun _ => homits⟩
  | commit k =>
    have hk := hasFrame_iff.mp hknown
    obtain ⟨hresult, homits⟩ := h.commit hk fun heq hactive => by
      subst heq
      refine hlost (a, k) ?_ rfl
      rw [commitsIn, if_pos hknown, if_pos hactive]
      exact List.mem_singleton_self _
    exact ⟨fun hother => hresult (by simpa [answersTo] using hother), fun _ => homits⟩
  | discard k => exact ⟨fun _ => rfl, fun _ => h.discard (hasFrame_iff.mp hknown)⟩
  | hold k => exact ⟨fun _ => rfl, fun _ => h.hold (hasFrame_iff.mp hknown)⟩
  | drop k => exact ⟨fun _ => rfl, fun _ => h.release (hasFrame_iff.mp hknown)⟩
  | enter k =>
    obtain ⟨hresult, homits⟩ := h.enterFrame (hasFrame_iff.mp hknown)
    exact ⟨fun _ => congrArg Answer.entered hresult, fun _ => homits⟩
  | leave first =>
    obtain ⟨k, hk⟩ := Option.isSome_iff_exists.mp hknown
    dsimp only [act, Call.renamed]
    rw [h.current_eq, hk]
    exact ⟨fun _ => rfl, fun _ => h.leaveFrame (h.tidy'.current k hk) first⟩
  | construct typeName merge initial =>
    have hmaking : a.makingFrame? 0 ≠ some f := by simpa [isWorkOf] using hwork
    have hnew : a.objects.length ∉ others := fun hmem => Nat.lt_irrefl _ (h.known _ hmem)
    refine ⟨fun _ => ?_, fun hnext => h.newObject hmaking hnext typeName merge initial⟩
    dsimp only [act, Call.renamed]
    rw [newObject_fst, newObject_fst, h.length_objects, Answer.renamed,
      List.idxOf_of_notMem hnew]
  | announce o =>
    dsimp only [act, Call.renamed]
    exact ⟨fun _ => rfl, fun _ => h.congr (outline_notifyCreated ..) (ledger_notifyCreated ..)
      (outline_notifyCreated ..) (ledger_notifyCreated ..)⟩
  | read o =>
    have ho := hobject o rfl
    dsimp only [act, Call.renamed]
    rw [h.foresees.idxOf_eq ho]
    refine ⟨fun hother => ?_, fun _ => ?_⟩
    · exact h.readable_eq (by simpa [answersTo] using hother) ho
    · exact h.congr (outline_readable ..) (follows_readable h.tidy _).ledger_eq
        (outline_readable ..) (follows_readable h.tidy' _).ledger_eq
  | readIn k o =>
    have ho := hobject o rfl
    dsimp only [act, Call.renamed]
    rw [h.foresees.idxOf_eq ho]
    refine ⟨fun hother => ?_, fun _ => ?_⟩
    · exact h.readableIn_eq (hasFrame_iff.mp (Bool.and_eq_true_iff.mp hknown).1)
        (by simpa [answersTo] using hother) ho
    · exact h.congr (outline_readableIn ..) (follows_readableIn h.tidy _ _).ledger_eq
        (outline_readableIn ..) (follows_readableIn h.tidy' _ _).ledger_eq
  | hasVisibleRecord o =>
    have ho := hobject o rfl
    dsimp only [act, Call.renamed]
    rw [h.foresees.idxOf_eq ho]
    refine ⟨fun hother => ?_, fun _ => h⟩
    exact congrArg Answer.visible
      (h.hasVisibleRecord_eq (by simpa [answersTo] using hother) ho)
  | write o change =>
    have ho := hobject o rfl
    have hcurrent : a.current ≠ some f := by simpa [isWorkOf] using hwork
    dsimp only [act, Call.renamed, withMade]
    rw [h.foresees.idxOf_eq ho]
    cases hwriter : a.current with
    | none =>
      have hwriter' : b.current = none := h.current_eq.trans hwriter
      rw [writing_writable_none hwriter, writing_writable_none hwriter', (h.identity o ho).1]
      exact ⟨fun _ => rfl, fun _ => h⟩
    | some k =>
      have hne : k ≠ f := fun heq => hcurrent (heq ▸ hwriter)
      rw [writing_writable hwriter, writing_writable (h.current_eq.trans hwriter)]
      obtain ⟨hresult, homits⟩ := h.writing (h.tidy'.current k hwriter) hne ho change
      exact ⟨fun _ => hresult, fun _ => homits⟩
  | writeIn k o change =>
    have ho := hobject o rfl
    have hne : k ≠ f := by simpa [isWorkOf] using hwork
    have hk := hasFrame_iff.mp (Bool.and_eq_true_iff.mp hknown).1
    dsimp only [act, Call.renamed]
    rw [h.foresees.idxOf_eq ho]
    obtain ⟨hresult, homits⟩ := h.writing hk hne ho change
    exact ⟨fun _ => hresult, fun _ => homits⟩
  | collect o =>
    have ho := hobject o rfl
    dsimp only [act, Call.renamed]
    rw [h.foresees.idxOf_eq ho]
    obtain ⟨hresult, homits⟩ := h.collect ho
    exact ⟨fun _ => congrArg Answer.collected hresult, fun _ => homits⟩

/-! ## Commits that observers attempt -/

/-- A write of another frame has the observer attempt a commit of the same result. -/
theorem map_outcome_commitsOnWrite (h : b.Omits a f others all) (hk : k < a.frames.length)
    (hne : k ≠ f) (ho : o ∈ others) :
    (b.commitsOnWrite k (others.idxOf o)).map outcome =
      (a.commitsOnWrite k o).map fun attempt => renamedOutcome others (outcome attempt) := by
  have hclosing : b.closingOnWrite? k (others.idxOf o) = a.closingOnWrite? k o := by
    obtain ⟨hresult, -⟩ := h.prepareWrite_eq hk hne ho
    obtain ⟨hobserved, hclosing⟩ := h.observer_eq hne
    rw [closingOnWrite?, closingOnWrite?, h.contains_written_eq hne ho, hobserved, hclosing]
    cases hb : b.prepareWrite k (others.idxOf o) with
    | mk result v =>
    cases ha : a.prepareWrite k o with
    | mk result' u =>
    rw [hb, ha] at hresult
    cases result' with
    | error violation =>
      obtain rfl : result = .error (violation.renamed others) := Answer.record.inj hresult
      rfl
    | ok r =>
      obtain rfl : result = .ok r := Answer.record.inj hresult
      rfl
  rw [commitsOnWrite, commitsOnWrite, hclosing]
  split
  · next hcommit =>
    obtain ⟨hmade, hactive, -⟩ := writeEffects_committing h.tidy' hk (h.known o ho) id hcommit
    have hprepared := h.prepareWrite hk hne ho
    have hlength : k < (a.prepareWrite k o).2.frames.length := by
      rwa [World.tellWrite, length_frames_modifyFrame] at hmade
    have htold := hprepared.tellWrite hlength (others.idxOf o) o
    exact congrArg (fun result => [result]) (htold.commitActive hmade hne hactive).1
  · rfl

/-- A call that is not answered to the frame attempts commits of the same results. -/
theorem map_outcome_commitsIn (h : b.Omits a f others all) (hother : a.answersTo f call = false)
    (hobject : ∀ o, call.object? = some o → o ∈ others) :
    (b.commitsIn (call.renamed all)).map outcome =
      (a.commitsIn call).map fun attempt => renamedOutcome others (outcome attempt) := by
  unfold commitsIn
  rw [h.knows_eq hobject]
  split
  swap
  · rfl
  next hknown =>
  cases call with
  | commit k =>
    have hne : k ≠ f := by simpa [answersTo] using hother
    dsimp only [Call.renamed]
    rw [h.isActive_eq]
    split
    · next hactive =>
      have hcommit := h.commitActive (hasFrame_iff.mp hknown) hne hactive
      exact congrArg (fun result => [result]) hcommit.1
    · rfl
  | write o change =>
    have hcurrent : a.current ≠ some f := by simpa [answersTo, isWorkOf] using hother
    dsimp only [Call.renamed]
    rw [h.current_eq, h.foresees.idxOf_eq (hobject o rfl)]
    cases hwriter : a.current with
    | none => rfl
    | some k =>
      have hne : k ≠ f := fun heq => hcurrent (heq ▸ hwriter)
      exact h.map_outcome_commitsOnWrite (h.tidy'.current k hwriter) hne (hobject o rfl)
  | writeIn k o change =>
    have hne : k ≠ f := by simpa [answersTo, isWorkOf] using hother
    dsimp only [Call.renamed]
    rw [h.foresees.idxOf_eq (hobject o rfl)]
    exact h.map_outcome_commitsOnWrite (hasFrame_iff.mp (Bool.and_eq_true_iff.mp hknown).1) hne
      (hobject o rfl)
  | _ => rfl

/-! ## Runs -/

/-- A run goes on without the work of the frame, if no commit of the frame succeeds. -/
theorem after {calls : List (Call α)} (hall : a.bystanders f others calls = all)
    (h : b.Omits a f others all)
    (hlost : ∀ attempt ∈ a.commits calls, attempt.2 = f →
      ∃ refusal, outcome attempt = .error refusal) :
    (b.after (a.leftOut f all calls)).Omits (a.after calls) f all all := by
  induction calls generalizing a b others with
  | nil =>
    obtain rfl : others = all := hall
    exact h
  | cons call rest ih =>
    have hfirst : ∀ attempt ∈ a.commitsIn call, attempt.2 = f →
        ∃ refusal, outcome attempt = .error refusal :=
      fun attempt hattempt => hlost attempt (List.mem_append_left _ hattempt)
    have hrest : ∀ attempt ∈ (a.step call).commits rest, attempt.2 = f →
        ∃ refusal, outcome attempt = .error refusal :=
      fun attempt hattempt => hlost attempt (List.mem_append_right _ hattempt)
    have hnext := (h.tidy'.step call).foresees_bystanders f
      (if a.isWorkOf f call then others else a.withMade others call) rest
    rw [bystanders] at hall
    rw [hall] at hnext
    rw [leftOut]
    cases hwork : a.isWorkOf f call with
    | true =>
      rw [hwork, if_pos rfl] at hall hnext
      exact ih hall (h.step_work hwork hnext) hrest
    | false =>
      rw [hwork, if_neg Bool.false_ne_true] at hall hnext
      rw [if_neg Bool.false_ne_true, after_cons, after_cons]
      by_cases hobject : ∀ o, call.object? = some o → o ∈ others
      · exact ih hall ((h.perform hwork hobject hfirst).2 hnext) hrest
      · -- The call names an object that the frame made, or none that was made.
        obtain ⟨o, hnames, ho⟩ : ∃ o, call.object? = some o ∧ o ∉ others := by
          simpa using hobject
        rw [withMade_of_object? hnames] at hall
        obtain ⟨hidle, homits⟩ := h.step_made hwork hnames ho
        rw [hidle]
        exact ih hall homits hrest

end Omits

/-! ## The start of the runs -/

/-- A frame lists objects under their new names. -/
theorem frame_relisted (others : List ObjectId) (w : World α) (k : FrameId) :
    (w.relisted others).frame k =
      { w.frame k with options := (w.frame k).options.renamed others } := by
  rw [frame, relisted, List.getElem?_map, frame]
  cases w.frames[k]? <;> rfl

/-- The order in which frames list objects is no matter of the bookkeeping. -/
theorem Tidy.relisted (hw : w.Tidy) (others : List ObjectId) : (w.relisted others).Tidy := by
  have hlength : (w.relisted others).frames.length = w.frames.length := List.length_map _
  refine ⟨hw.sole, hw.sound, hw.owner, fun k hk => ?_, fun k j hlt hj => ?_, fun k hk => ?_⟩
  · rw [hlength]
    exact hw.current k hk
  · rw [hlength] at hj
    rw [frame_relisted, frame_relisted]
    exact hw.distinct k j hlt hj
  · rw [hlength] at hk
    rw [frame_relisted]
    exact (hw.fits k hk).of_eq rfl rfl rfl rfl id

/-- Nobody else sees the generation of the frame that was opened last: all other frames were opened
before. -/
theorem Tidy.canSee_latest_eq_false (hw : w.Tidy) (hf : f < w.frames.length)
    (hlatest : w.ledger.next = (w.frame f).generation + 1) (hk : k < w.frames.length)
    (hne : k ≠ f) : (w.frame k).view.canSee (w.frame f).generation = false := by
  have hminted : (w.frame k).generation < (w.frame f).generation + 1 :=
    hlatest ▸ (hw.fits k hk).minted
  have hgne : (w.frame k).generation ≠ (w.frame f).generation :=
    fun heq => hne (hw.eq_of_generation_eq hk hf heq)
  have hless : (w.frame k).generation < (w.frame f).generation :=
    Nat.lt_of_le_of_ne (Nat.le_of_lt_succ hminted) hgne
  rw [Bool.eq_false_iff]
  intro hsee
  rcases Visibility.canSee_iff.mp hsee with ⟨-, heq⟩ | ⟨hnewer, -⟩
  · exact hgne heq.symm
  · exact Nat.lt_asymm hless hnewer

/-- Right after a frame was opened nothing is left out. -/
theorem Tidy.omits_opened (hw : w.Tidy) {options : FrameOptions} {v : World α}
    (hopened : (w.perform (.openFrame options)).1 = .opened (.ok f))
    (hquiet : options.observed = false ∨ options.onFirstWrite = none)
    (hstep : v = w.step (.openFrame options))
    (hall : Foresees all (List.range v.objects.length) v.objects.length) :
    (v.relisted all).Omits v f (List.range v.objects.length) all := by
  have hv := hw.step (.openFrame options)
  obtain ⟨-, hledger, hlt, hframe⟩ := of_opened hw hopened
  rw [← hstep] at hv hledger hlt hframe
  have hgen : (v.frame f).generation = w.ledger.next := congrArg Frame.generation hframe
  have hpos {o : ObjectId} (ho : o ∈ List.range v.objects.length) :
      (List.range v.objects.length).idxOf o = o := idxOf_range (List.mem_range.mp ho)
  have hunwritten (o : ObjectId) :
      ∀ r ∈ (v.ledger.chain o).records, r.generation ≠ (v.frame f).generation := by
    rw [hledger, hgen]
    exact fun r hr => Nat.ne_of_lt ((hw.sound.coherent o).minted r hr)
  refine
    { length_frames := List.length_map _
      opened := hlt
      config_eq := rfl
      current_eq := rfl
      other := fun k _ => ?_
      own := ?_
      length_objects := List.length_range.symm
      known := fun o ho => List.mem_range.mp ho
      foresees := hall
      identity := fun o ho => ?_
      tidy := hv.relisted all
      tidy' := hv
      closed := fun hclosed => ?_
      hidden := fun k hk hne _ => ?_
      ledger :=
        { next_eq := rfl
          table_eq := rfl
          minted := (hv.fits f hlt).minted
          chain := fun o ho => ?_
          branched := fun o _ r hr hg => absurd hg (hunwritten o r hr)
          made := fun o ho r hr => ?_ } }
  · obtain ⟨htouched, hwritten⟩ := hv.lt_of_touched k
    rw [frame_relisted, Frame.renamed, hall.positions_eq htouched, hall.positions_eq hwritten,
      positions_range htouched, positions_range hwritten]
  · rw [frame_relisted, hframe]
    exact ⟨rfl, rfl, rfl, rfl, rfl, rfl, hquiet⟩
  · rw [hpos ho]
    exact ⟨rfl, rfl⟩
  · rw [hframe] at hclosed
    cases hclosed
  · exact hv.canSee_latest_eq_false hlt (by rw [hledger, hgen]; rfl) hk hne
  · rw [hpos ho, Chain.omitting_eq_self (hunwritten o)]
    rfl
  · rw [chain_eq_nil (Nat.le_of_not_lt fun hmade => ho (List.mem_range.mpr hmade))] at hr
    cases hr

/-- **Uncommitted work leaves no trace.** A frame is opened, with no write observer or with one that
does not close it, and then anything is asked, but no commit of the frame succeeds. The run is
repeated without what the frame writes and makes, and every other frame goes through the objects in
the order that it had. Then every call is answered the same in both worlds, and attempts commits of
the same results, unless it is answered to the frame or names an object that the frame made. Once
the frame is closed, every object that it did not make has the same chain in both worlds. Of what it
made, no other frame and nobody outside of frames selects anything, and no view at all once the
frame is closed. -/
theorem uncommitted_work_unobserved (config : Config) (before calls : List (Call α))
    {options : FrameOptions}
    (hopened : (((start α config).after before).perform (.openFrame options)).1 = .opened (.ok f))
    (hquiet : options.observed = false ∨ options.onFirstWrite = none)
    (hlost : ∀ attempt ∈ ((start α config).after (before ++ [.openFrame options])).commits calls,
      attempt.2 = f → ∃ refusal, outcome attempt = .error refusal) :
    let opened := (start α config).after (before ++ [.openFrame options])
    let others := opened.bystanders f (List.range opened.objects.length) calls
    let busy := opened.after calls
    let idle := (opened.relisted others).after (opened.leftOut f others calls)
    (∀ call, busy.answersTo f call = false →
      (∀ o, call.object? = some o → busy.hasObject o = true → o ∈ others) →
      (idle.perform (call.renamed others)).1 = (busy.perform call).1.renamed others ∧
        (idle.commitsIn (call.renamed others)).map outcome =
          (busy.commitsIn call).map fun attempt => renamedOutcome others (outcome attempt)) ∧
    idle.objects.length = others.length ∧
    ((busy.frame f).isActive = false → ∀ o ∈ others,
      (idle.object (others.idxOf o)).chain = (busy.object o).chain) ∧
    ∀ o, o ∉ others →
      (∀ k < busy.frames.length, k ≠ f → busy.select? o (busy.frame k).view = none) ∧
        busy.selectCommitted? o = none ∧
        ((busy.frame f).isActive = false → ∀ view, busy.select? o view = none) := by
  have hbefore := (tidy_start α config).after before
  have hstep : (start α config).after (before ++ [.openFrame options]) =
      ((start α config).after before).step (.openFrame options) := after_append ..
  have htidy := (tidy_start α config).after (before ++ [.openFrame options])
  have hfirst := hbefore.omits_opened hopened hquiet hstep
    (htidy.foresees_bystanders f (List.range _) calls)
  have homits := Omits.after rfl hfirst hlost
  dsimp only
  generalize (start α config).after (before ++ [.openFrame options]) = opened at homits
  generalize opened.bystanders f _ calls = others at homits
  generalize (opened.relisted others).after _ = idle at homits
  generalize opened.after calls = busy at homits
  refine ⟨fun call hother hmade => ?_, homits.length_objects, fun hclosed o ho => ?_,
    fun o ho => ⟨fun k hk hne => homits.select?_made hk hne ho, homits.selectCommitted?_made ho,
      fun hclosed => homits.select?_made_of_closed hclosed ho⟩⟩
  · have hwork := isWorkOf_of_answersTo hother
    have hnone : ∀ attempt ∈ busy.commitsIn call, attempt.2 = f →
        ∃ refusal, outcome attempt = .error refusal := by
      rintro ⟨v, g⟩ hattempt rfl
      rw [answersTo_of_mem_commitsIn hattempt] at hother
      cases hother
    by_cases hobject : ∀ o, call.object? = some o → o ∈ others
    · exact ⟨(homits.perform hwork hobject hnone).1 hother,
        homits.map_outcome_commitsIn hother hobject⟩
    · -- The call names an object that was not made in either world.
      obtain ⟨o, hnames, ho⟩ : ∃ o, call.object? = some o ∧ o ∉ others := by
        simpa using hobject
      have hunknown : busy.hasObject o = false := by
        rw [Bool.eq_false_iff]
        exact fun hhas => ho (hmade o hnames hhas)
      have hrenamed : (call.renamed others).object? = some (others.idxOf o) := by
        rw [object?_renamed, hnames, Option.map_some]
      have hbusy := knows_eq_false hnames hunknown
      have hidle := knows_eq_false hrenamed (homits.hasObject_of_notMem ho)
      simp only [World.perform, commitsIn, hbusy, hidle, Bool.false_eq_true, if_false]
      exact ⟨rfl, rfl⟩
  · exact homits.ledger.chain_eq ho (homits.closed hclosed)

/-- A counter is made, and then a frame is opened. -/
def besideCounter : World Nat :=
  (start Nat {}).after ([.construct "Counter" (fun _ _ _ => none) 0] ++ [.openFrame {}])

/-- While a frame writes a counter and makes a draft, another frame raises the counter and a report
is made; then the first frame is discarded. -/
def discardedDraft : List (Call Nat) :=
  [.enter 0, .construct "Draft" (fun _ _ _ => none) 7, .write 0 fun _ => 9, .leave true,
    .openFrame {}, .writeIn 1 0 (· + 3), .construct "Report" (fun _ _ _ => none) 1, .commit 1,
    .discard 0]

/-- The counter and the report are the same as if the first frame had done nothing, although the
report is the third object of the one run and the second of the other. -/
theorem discarded_draft_unobserved :
    let busy := besideCounter.after discardedDraft
    let idle := (besideCounter.relisted [0, 2]).after
      (besideCounter.leftOut 0 [0, 2] discardedDraft)
    besideCounter.bystanders 0 [0] discardedDraft = [0, 2] ∧
      (idle.object 0).chain = (busy.object 0).chain ∧
      (idle.object 1).chain = (busy.object 2).chain ∧
      (busy.object 0).chain.records ≠ [] ∧ busy.select? 1 (.snapshot 9 []) = none := by
  have hfirst : List.range besideCounter.objects.length = [0] := by decide +kernel
  have hothers : besideCounter.bystanders 0 [0] discardedDraft = [0, 2] := by decide +kernel
  have hclosed : ((besideCounter.after discardedDraft).frame 0).isActive = false := by
    decide +kernel
  have hcommits : (besideCounter.commits discardedDraft).map Prod.snd = [1] := by decide +kernel
  have hlost : ∀ attempt ∈ besideCounter.commits discardedDraft, attempt.2 = 0 →
      ∃ refusal, outcome attempt = .error refusal := by
    intro attempt hattempt hframe
    have hmem := List.mem_map_of_mem (f := Prod.snd) hattempt
    rw [hcommits, hframe] at hmem
    simp at hmem
  have hopened : (((start Nat {}).after [.construct "Counter" (fun _ _ _ => none) 0]).perform
      (.openFrame {})).1 = .opened (.ok 0) := rfl
  have h := uncommitted_work_unobserved {} _ discardedDraft hopened (Or.inl rfl) hlost
  dsimp only at h ⊢
  rw [← besideCounter, hfirst, hothers] at h
  obtain ⟨-, -, hchains, hmade⟩ := h
  exact ⟨hothers, hchains hclosed 0 (by decide), hchains hclosed 2 (by decide), by decide +kernel,
    (hmade 1 (by decide)).2.2 hclosed _⟩

end World

end VersionedObjects.Store
