import VersionedObjects.Proofs.Store.WorldOmission

/-!
# Writes without the work of a frame

A write of another frame to an object that the frame did not make has the same result in a world
without the work of the frame, and a write to what the frame made fails and is left out. Whatever
the frame itself writes is left out.
-/

namespace VersionedObjects.Store

variable {α : Type}

namespace World

variable {a b u v w : World α} {f k : FrameId} {o : ObjectId} {others all : List ObjectId}

/-- In the outline the observer has been told of the write. -/
theorem outline_tellWrite (w : World α) (k : FrameId) (o : ObjectId) :
    (w.tellWrite k o).outline = w.outline.modifyFrame k fun frame =>
      { frame with options := frame.options.afterFirstWrite } :=
  rfl

/-- Preparing a write leaves every frame as open as it was. -/
theorem frames_prepareWrite (w : World α) (k : FrameId) (o : ObjectId) :
    (w.prepareWrite k o).2.frames.length = w.frames.length ∧
      ∀ j, ((w.prepareWrite k o).2.frame j).isActive = (w.frame j).isActive := by
  have hnoted (j : FrameId) : ((w.noteWrite k o).frame j).isActive = (w.frame j).isActive :=
    frame_noteWrite Frame.isActive (fun _ _ => rfl) (fun _ _ => rfl) w k o j
  cases hprepare : w.prepareWrite k o with
  | mk result v =>
  cases result with
  | ok r =>
    exact ⟨length_frames_prepareWrite hprepare,
      frame_prepareWrite Frame.isActive (fun _ _ => rfl) (fun _ _ => rfl) hprepare⟩
  | error violation =>
    rcases of_prepareWrite_error hprepare with rfl | rfl
    · exact ⟨rfl, fun _ => rfl⟩
    · exact ⟨length_frames_noteWrite w k o, hnoted⟩

namespace Omits

/-! ## Writes of other frames -/

/-- A write of another frame finds or branches the same record. -/
theorem prepareWrite_eq (h : b.Omits a f others all) (hk : k < a.frames.length) (hne : k ≠ f)
    (ho : o ∈ others) :
    Answer.record (b.prepareWrite k (others.idxOf o)).1 =
        (Answer.record (a.prepareWrite k o).1).renamed others ∧
      (b.prepareWrite k (others.idxOf o)).2.Mirrors (a.prepareWrite k o).2 f others all := by
  have hpos := h.foresees.idxOf_eq ho
  have hnoted : (b.noteWrite k (others.idxOf o)).Mirrors (a.noteWrite k o) f others all :=
    h.toMirrors.modifyFrame hk (b.outline_noteWrite k (others.idxOf o)) (a.outline_noteWrite k o)
      (fun _ => hpos ▸ (Frame.renamed_writing (h.foresees.mem ho) _).symm)
      fun heq => absurd heq hne
  have hfind := h.find?_eq hk hne ho
  have hselect := h.select?_eq hk hne ho
  have howner : (b.object (others.idxOf o)).manager = (a.object o).manager :=
    (h.tidy.owner _).trans (h.tidy'.owner o).symm
  rw [h.generation_eq] at hfind
  rw [h.view_eq] at hselect
  unfold World.prepareWrite
  dsimp only
  rw [h.isActive_eq, h.readOnly_eq, h.manager_eq, h.generation_eq, h.view_eq, h.state_eq hne,
    howner, (h.identity o ho).1, hfind, hselect]
  cases hactive : (a.frame k).isActive with
  | false => exact ⟨rfl, h.toMirrors⟩
  | true =>
  cases (a.frame k).options.readOnly with
  | true => exact ⟨rfl, h.toMirrors⟩
  | false =>
  cases (a.frame k).manager != (a.object o).manager with
  | true => exact ⟨rfl, h.toMirrors⟩
  | false =>
  simp only [Bool.not_true, Bool.false_eq_true, if_false]
  cases hmine : (a.object o).chain.find? (a.frame k).generation with
  | some r => exact ⟨rfl, hnoted⟩
  | none =>
  cases hbase : a.select? o (a.frame k).view with
  | none => exact ⟨rfl, hnoted⟩
  | some base =>
    have hsame : base.branchedFor (b.frame k) = base.branchedFor (a.frame k) := by
      rw [Record.branchedFor, h.generation_eq, ← Record.branchedFor]
    refine ⟨?_, hnoted.congr (outline_modifyChain ..) (outline_modifyChain ..)⟩
    dsimp only
    rw [hsame]
    rfl

/-- A write of another frame is prepared in both worlds. -/
theorem prepareWrite (h : b.Omits a f others all) (hk : k < a.frames.length) (hne : k ≠ f)
    (ho : o ∈ others) :
    (b.prepareWrite k (others.idxOf o)).2.Omits (a.prepareWrite k o).2 f others all := by
  obtain ⟨hresult, hmirrors⟩ := h.prepareWrite_eq hk hne ho
  obtain ⟨hlength, hactive⟩ := a.frames_prepareWrite k o
  have hk' := h.lt_length hk
  have hmade := h.made_lt ho
  have hknown := h.known o ho
  cases hb : b.prepareWrite k (others.idxOf o) with
  | mk result v =>
  cases ha : a.prepareWrite k o with
  | mk result' u =>
  rw [hb, ha] at hresult hmirrors
  rw [ha] at hlength hactive
  cases result' with
  | error violation =>
    obtain rfl : result = .error (violation.renamed others) := Answer.record.inj hresult
    have hv := follows_prepareWrite_error h.tidy hmade hb
    have hu := follows_prepareWrite_error h.tidy' hknown ha
    refine h.of_follows hv hu hmirrors hlength (Or.inl (hactive f)) ?_
    rw [hv.ledger_eq, hu.ledger_eq]
    exact h.ledger
  | ok r =>
    obtain rfl : result = .ok r := Answer.record.inj hresult
    have hv := follows_prepareWrite h.tidy hk' hmade hb
    have hu := follows_prepareWrite h.tidy' hk hknown ha
    refine h.of_follows hv hu hmirrors hlength (Or.inl (hactive f)) ?_
    have hadmits := hu.admits
    rw [hv.ledger_eq, hu.ledger_eq, linkEffects, linkEffects, h.find?_eq hk hne ho]
    rw [linkEffects] at hadmits
    cases hmine : (a.object o).chain.find? (a.frame k).generation with
    | some mine => exact h.ledger
    | none =>
      rw [hmine] at hadmits
      have hgen : r.generation ≠ (a.frame f).generation := by
        rw [generation_of_prepareWrite ha]
        exact h.generation_ne hk hne
      exact h.ledger.apply_branched h.tidy'.sound ho hadmits.1 hgen

/-- The observer of a frame is told of a write in both worlds. -/
theorem tellWrite (h : b.Omits a f others all) (hk : k < a.frames.length) (o p : ObjectId) :
    (b.tellWrite k o).Omits (a.tellWrite k p) f others all :=
  h.modifyFrame hk (follows_tellWrite h.tidy k o) (follows_tellWrite h.tidy' k p)
    (b.outline_tellWrite k o) (a.outline_tellWrite k p)
    (fun frame => Frame.renamed_afterFirstWrite all frame) (fun hidles => hidles.afterFirstWrite)
    fun _ => rfl

/-- The observer of another frame closes it in both worlds. -/
theorem afterObserver (h : b.Omits a f others all) (hk : k < a.frames.length) (hne : k ≠ f)
    (hactive : (a.frame k).isActive = true) (o p : ObjectId) :
    (b.afterObserver k o).Omits (a.afterObserver k p) f others all := by
  have htold := h.tellWrite hk o p
  have hk' : k < (a.tellWrite k p).frames.length := by
    rwa [World.tellWrite, length_frames_modifyFrame]
  have hactive' : ((a.tellWrite k p).frame k).isActive = true := by
    rw [frame_tellWrite hk]
    exact hactive
  obtain ⟨hobserved, hclosing⟩ := h.observer_eq hne
  rw [World.afterObserver, World.afterObserver, hobserved, hclosing]
  split
  · split
    · exact htold
    · exact (htold.commitActive hk' hne hactive').2
    · exact htold.discardActive hk' hactive'
  · exact h

/-- A value of another frame is stored in both worlds. -/
theorem store (h : b.Omits a f others all) (ho : o ∈ others) (g : Generation) (change : α → α) :
    (b.store (others.idxOf o) g change).Omits (a.store o g change) f others all := by
  have hv := follows_store h.tidy (h.made_lt ho) g change
  have hu := follows_store h.tidy' (h.known o ho) g change
  refine h.of_follows hv hu (h.toMirrors.congr (outline_modifyChain ..) (outline_modifyChain ..))
    rfl (Or.inl rfl) ?_
  rw [hv.ledger_eq, hu.ledger_eq]
  exact h.ledger.apply_stored ho g change

/-- A write of another frame has the same result. -/
theorem writing (h : b.Omits a f others all) (hk : k < a.frames.length) (hne : k ≠ f)
    (ho : o ∈ others) (change : α → α) :
    let i := others.idxOf o
    Answer.record (b.writing (writableIn k i) i change).1 =
        (Answer.record (a.writing (writableIn k o) o change).1).renamed others ∧
      (b.writing (writableIn k i) i change).2.Omits (a.writing (writableIn k o) o change).2 f
        others all := by
  obtain ⟨hresult, -⟩ := h.prepareWrite_eq hk hne ho
  have hprepared := h.prepareWrite hk hne ho
  obtain ⟨hlength, hstill⟩ := a.frames_prepareWrite k o
  dsimp only
  rw [World.writing, World.writing, writableIn_run, writableIn_run,
    h.contains_written_eq hne ho]
  cases hb : b.prepareWrite k (others.idxOf o) with
  | mk result v =>
  cases ha : a.prepareWrite k o with
  | mk result' u =>
  rw [hb, ha] at hresult hprepared
  rw [ha] at hlength hstill
  cases result' with
  | error violation =>
    obtain rfl : result = .error (violation.renamed others) := Answer.record.inj hresult
    exact ⟨rfl, hprepared⟩
  | ok r =>
    obtain rfl : result = .ok r := Answer.record.inj hresult
    dsimp only at hprepared hlength hstill ⊢
    have hactive : (u.frame k).isActive = true := (hstill k).trans (of_prepareWrite ha).1
    refine ⟨rfl, ?_⟩
    split
    · exact hprepared.store ho r.generation change
    · have hobserved := hprepared.afterObserver (hlength ▸ hk) hne hactive (others.idxOf o) o
      exact hobserved.store ho r.generation change

/-- A write of another frame to what the frame made fails, and is left out. -/
theorem writing_made (h : b.Omits a f others all) (hk : k < a.frames.length) (hne : k ≠ f)
    (ho : o ∉ others) (hmade : o < a.objects.length) (change : α → α) :
    b.Omits (a.writing (writableIn k o) o change).2 f others all := by
  have hnoted : b.Mirrors (a.noteWrite k o) f others all :=
    h.toMirrors.modifyFrame_left hk (a.outline_noteWrite k o)
      (fun _ => Frame.renamed_writing_of_notMem (mt (h.foresees.mem_iff hmade).mp ho) _)
      fun heq => absurd heq hne
  obtain ⟨hlength, hactive⟩ := a.frames_prepareWrite k o
  rw [World.writing, writableIn_run]
  cases ha : a.prepareWrite k o with
  | mk result u =>
  rw [ha] at hlength hactive
  cases result with
  | ok r =>
    rcases of_prepareWrite ha with ⟨-, ⟨hfind, -⟩ | ⟨-, base, hbase, -⟩⟩
    · rw [h.find?_made hk hne ho] at hfind
      cases hfind
    · rw [h.select?_made hk hne ho] at hbase
      cases hbase
  | error violation =>
    have hu := follows_prepareWrite_error h.tidy' hmade ha
    refine h.of_follows_left hu ?_ hlength (hactive f) ?_
    · rcases of_prepareWrite_error ha with rfl | rfl
      · exact h.toMirrors
      · exact hnoted
    · rw [hu.ledger_eq]
      exact h.ledger

/-! ## Writes of the frame -/

/-- The frame's own record is found or branched in the one world alone. -/
theorem prepareWrite_own (h : b.Omits a f others all) (hmade : o < a.objects.length) :
    b.Omits (a.prepareWrite f o).2 f others all := by
  have hnoted : b.Mirrors (a.noteWrite f o) f others all :=
    h.toMirrors.modifyFrame_left h.opened (a.outline_noteWrite f o)
      (fun hne => absurd rfl hne) fun _ => h.own.writing o
  obtain ⟨hlength, hactive⟩ := a.frames_prepareWrite f o
  cases ha : a.prepareWrite f o with
  | mk result u =>
  rw [ha] at hlength hactive
  cases result with
  | error violation =>
    have hu := follows_prepareWrite_error h.tidy' hmade ha
    refine h.of_follows_left hu ?_ hlength (hactive f) ?_
    · rcases of_prepareWrite_error ha with rfl | rfl
      · exact h.toMirrors
      · exact hnoted
    · rw [hu.ledger_eq]
      exact h.ledger
  | ok r =>
    have hu := follows_prepareWrite h.tidy' h.opened hmade ha
    refine h.of_follows_left hu (hnoted.congr rfl (outline_prepareWrite ha)) hlength (hactive f) ?_
    have hadmits := hu.admits
    rw [hu.ledger_eq, linkEffects]
    rw [linkEffects] at hadmits
    rcases of_prepareWrite ha with ⟨-, ⟨hfind, -⟩ | ⟨hfind, base, hbase, -⟩⟩
    · rw [hfind]
      exact h.ledger
    · rw [hfind] at hadmits ⊢
      by_cases ho : o ∈ others
      · exact h.ledger.apply_branched_own h.tidy'.sound ho hadmits.1
          (generation_of_prepareWrite ha)
      · -- The frame has a record of whatever it made.
        have hmem : base ∈ (a.ledger.chain o).records :=
          List.mem_reverse.mp (List.mem_of_find?_eq_some hbase)
        exact absurd (h.ledger.made o ho base hmem).1 (Chain.find?_eq_none_iff.mp hfind base hmem)

/-- The observer of the frame does not close it. -/
theorem afterObserver_own (h : b.Omits a f others all) (o : ObjectId) :
    b.Omits (a.afterObserver f o) f others all := by
  rw [World.afterObserver]
  rcases h.own.quiet with hunobserved | hquiet
  · rw [hunobserved, if_neg Bool.false_ne_true]
    exact h
  · rw [FrameOptions.closing?_quiet hquiet]
    split
    · have hmirrors : b.Mirrors (a.tellWrite f o) f others all :=
        h.toMirrors.modifyFrame_left h.opened (a.outline_tellWrite f o)
          (fun hne => absurd rfl hne) fun _ => h.own.afterFirstWrite_left
      refine h.of_follows_left (follows_tellWrite h.tidy' f o) hmirrors ?_ ?_ h.ledger
      · rw [World.tellWrite, length_frames_modifyFrame]
        rfl
      · rw [frame_tellWrite h.opened o]
        rfl
    · exact h

/-- A value of the frame is stored in the one world alone. -/
theorem store_own (h : b.Omits a f others all) (hmade : o < a.objects.length) (change : α → α) :
    b.Omits (a.store o (a.frame f).generation change) f others all := by
  have hu := follows_store h.tidy' hmade (a.frame f).generation change
  refine h.of_follows_left hu (h.toMirrors.congr rfl (outline_modifyChain ..)) rfl rfl ?_
  rw [hu.ledger_eq]
  exact h.ledger.apply_stored_own o change

/-- A write of the frame is left out. -/
theorem writing_own (h : b.Omits a f others all) (hmade : o < a.objects.length) (change : α → α) :
    b.Omits (a.writing (writableIn f o) o change).2 f others all := by
  have hprepared := h.prepareWrite_own hmade
  rw [World.writing, writableIn_run]
  cases ha : a.prepareWrite f o with
  | mk result u =>
  rw [ha] at hprepared
  cases result with
  | error violation => exact hprepared
  | ok r =>
    have hmade' : o < u.objects.length := (length_objects_prepareWrite ha).symm ▸ hmade
    have hgen : r.generation = (u.frame f).generation :=
      (generation_of_prepareWrite ha).trans (congrArg Visibility.generation
        (frame_prepareWrite Frame.view (fun _ _ => rfl) (fun _ _ => rfl) ha f)).symm
    have hactive : (u.frame f).isActive = true :=
      (frame_prepareWrite Frame.isActive (fun _ _ => rfl) (fun _ _ => rfl) ha f).trans
        (of_prepareWrite ha).1
    dsimp only at hprepared ⊢
    split
    · rw [hgen]
      exact hprepared.store_own hmade' change
    · have hobserved := follows_afterObserver hprepared.tidy' hprepared.opened hactive o
      have hlength := length_objects_afterObserver hprepared.tidy' hprepared.opened hactive o
      have hview := (frame_of_keeps hobserved.keeps hprepared.opened).2
      have hgen' : r.generation = ((u.afterObserver f o).frame f).generation :=
        hgen.trans (congrArg Visibility.generation hview).symm
      rw [hgen']
      exact (hprepared.afterObserver_own o).store_own (hlength.symm ▸ hmade') change

end Omits

end World

end VersionedObjects.Store
