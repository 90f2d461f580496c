import VersionedObjects.Proofs.Store.Tidy

/-!
# Closing frames

What discarding and committing an open frame do to a tidy world: the effects on the ledger, the
outline, and the outcome of a commit. A commit checks the touched objects in order and publishes
the merged values under the next generations of the clock, one for each.
-/

namespace VersionedObjects.Store

variable {α : Type}

/-- A generation is open if it has its entry in the open table. -/
@[simp] theorem Manager.isOpen_iff {m : Manager} {g : Generation} :
    m.isOpen g = true ↔ g ∈ OpenTable.generations m.openTable :=
  List.contains_iff_mem

namespace World

variable {w : World α}

/-! ## Changing several chains -/

/-- The world with the chains of objects changed in order. -/
def modifyChains (w : World α) (objects : List ObjectId) (f : Chain α → Chain α) : World α :=
  objects.foldl (fun w o => w.modifyChain o f) w

/-- Chains are not in the outline. -/
@[simp] theorem outline_modifyChains (w : World α) (objects : List ObjectId)
    (f : Chain α → Chain α) : (w.modifyChains objects f).outline = w.outline := by
  induction objects generalizing w with
  | nil => rfl
  | cons o rest ih => rw [modifyChains, List.foldl_cons, ← modifyChains, ih, outline_modifyChain]

/-- Changing the chains of distinct objects one after the other changes each of them once. -/
theorem ledger_modifyChains (f : Chain α → Chain α) {objects : List ObjectId}
    (hnodup : objects.Nodup) {w : World α} (hmade : ∀ o ∈ objects, o < w.objects.length) :
    (w.modifyChains objects f).ledger =
      { next := w.ledger.next
        table := w.ledger.table
        chain := fun p =>
          if p ∈ objects then f (w.ledger.chain p) else w.ledger.chain p } := by
  induction objects generalizing w with
  | nil => simp [modifyChains]
  | cons o rest ih =>
    obtain ⟨ho, hrest⟩ := List.nodup_cons.mp hnodup
    have hmade' : ∀ p ∈ rest, p < (w.modifyChain o f).objects.length := by
      intro p hp
      rw [modifyChain, length_objects_modifyObject]
      exact hmade p (List.mem_cons_of_mem o hp)
    rw [modifyChains, List.foldl_cons, ← modifyChains, ih hrest hmade',
      ledger_modifyChain (hmade o List.mem_cons_self), Ledger.mk.injEq]
    refine ⟨rfl, rfl, funext fun p => ?_⟩
    rw [Ledger.modifyChain_chain]
    by_cases hp : p = o
    · subst hp
      simp [ho]
    · simp [hp]

/-! ## Discarding -/

/-- To close generations takes their entries off the ledger's table. -/
theorem ledger_closeAll (hsole : w.managers.length = 1) (generations : List Generation) :
    (w.modifyManager 0 (·.closeAll generations)).ledger =
      { w.ledger with
        table := w.ledger.table.filter fun entry => !generations.contains entry.1 } := by
  rw [ledger_modifyManager hsole]
  rfl

/-- A discarded frame disappears from every chain, and its generation is closed. -/
theorem ledger_discardActive (hw : w.Tidy) {f : FrameId} (hf : f < w.frames.length)
    (hactive : (w.frame f).isActive = true) :
    (w.discardActive f).ledger = w.ledger.apply (.discarded (w.frame f).generation) := by
  have hfits := hw.fits f hf
  have hunfold : (w.discardActive f).ledger = ((w.modifyChains (w.frame f).listed
      (·.discard (w.frame f).generation)).modifyManager 0
        (·.closeAll [(w.frame f).generation])).ledger := by
    rw [discardActive, hfits.manager_eq, ledger_count, ledger_modifyFrame, modifyChains]
  have hout := outline_modifyChains w (w.frame f).listed (·.discard (w.frame f).generation)
  rw [hunfold, ledger_closeAll ((congrArg Outline.managers hout).trans hw.sole),
    ledger_modifyChains _ hfits.nodup_listed hfits.made_listed, Ledger.apply, Ledger.mk.injEq]
  refine ⟨rfl, ?_, funext fun o => ?_⟩
  · refine List.filter_congr fun entry _ => ?_
    rw [Bool.eq_iff_iff]
    simp
  · -- A frame has records only of objects that it touched.
    by_cases ho : o ∈ (w.frame f).listed
    · simp only [ho, if_true]
    · simp only [ho, if_false]
      refine (Chain.discard_eq_self (Chain.find?_eq_none_iff.mpr fun r hr hgen => ?_)).symm
      exact ho (Frame.mem_listed.mpr (hfits.touched hactive o r hr hgen))

/-- Open generations are not in the outline. -/
theorem outline_closeAll (w : World α) (m : ManagerId) (generations : List Generation) :
    (w.modifyManager m (·.closeAll generations)).outline = w.outline :=
  w.outline_modifyManager m fun _ => rfl

/-- In the outline a frame that is discarded is in that state. -/
theorem outline_discardActive (w : World α) (f : FrameId) :
    (w.discardActive f).outline =
      w.outline.modifyFrame f fun frame => { frame with state := .discarded } := by
  rw [discardActive, ← modifyChains, outline_count, outline_modifyFrame, outline_closeAll,
    outline_modifyChains]

/-! ## Checking what a frame touched -/

/-- A conflict is that of a checked object. -/
theorem of_checkTouched_error {view : Visibility} {isOpen : Generation → Bool}
    {objects : List ObjectId} {o : ObjectId} {committed : Generation}
    (h : w.checkTouched view isOpen objects = .error (o, committed)) :
    o ∈ objects ∧ (w.object o).checkCommit view isOpen = .conflict committed := by
  induction objects with
  | nil => cases h
  | cons p rest ih =>
    unfold checkTouched at h
    split at h
    · obtain ⟨hmem, hcheck⟩ := ih h
      exact ⟨List.mem_cons_of_mem p hmem, hcheck⟩
    · next other hcheck =>
      cases h
      exact ⟨List.mem_cons_self, hcheck⟩
    · cases hrest : w.checkTouched view isOpen rest with
      | error e =>
        rw [hrest] at h
        obtain ⟨hmem, hcheck⟩ := ih (hrest.trans h)
        exact ⟨List.mem_cons_of_mem p hmem, hcheck⟩
      | ok merges =>
        rw [hrest] at h
        cases h

/-- A check without conflict finds every value to merge, in the order of the objects. -/
theorem of_checkTouched_ok {view : Visibility} {isOpen : Generation → Bool}
    {objects : List ObjectId} {merges : List (PendingMerge α)}
    (h : w.checkTouched view isOpen objects = .ok merges) :
    (merges.map (·.object)).Sublist objects ∧
      (∀ o ∈ objects, ∀ committed,
        (w.object o).checkCommit view isOpen ≠ .conflict committed) ∧
      ∀ merge : PendingMerge α, merge ∈ merges ↔ merge.object ∈ objects ∧
        (w.object merge.object).checkCommit view isOpen = .merge merge.base merge.value := by
  induction objects generalizing merges with
  | nil =>
    cases h
    simp
  | cons p rest ih =>
    unfold checkTouched at h
    split at h
    · next hcheck =>
      obtain ⟨hsub, hclash, hmem⟩ := ih h
      refine ⟨hsub.cons p, fun o ho => ?_, fun merge => ?_⟩
      · rcases List.mem_cons.mp ho with rfl | ho
        · rw [hcheck]
          exact nofun
        · exact hclash o ho
      · rw [hmem, List.mem_cons]
        refine ⟨fun hm => ⟨Or.inr hm.1, hm.2⟩, fun ⟨ho, hm⟩ => ⟨ho.resolve_left ?_, hm⟩⟩
        rintro heq
        rw [heq, hcheck] at hm
        cases hm
    · cases h
    · next committed value hcheck =>
      cases hrest : w.checkTouched view isOpen rest with
      | error e =>
        rw [hrest] at h
        cases h
      | ok others =>
        rw [hrest] at h
        obtain rfl := Except.ok.inj h
        obtain ⟨hsub, hclash, hmem⟩ := ih hrest
        refine ⟨hsub.cons_cons p, fun o ho => ?_, fun merge => ?_⟩
        · rcases List.mem_cons.mp ho with rfl | ho
          · rw [hcheck]
            exact nofun
          · exact hclash o ho
        · rw [List.mem_cons, List.mem_cons, hmem]
          constructor
          · rintro (rfl | ⟨ho, hm⟩)
            · exact ⟨Or.inl rfl, hcheck⟩
            · exact ⟨Or.inr ho, hm⟩
          · rintro ⟨heq | ho, hm⟩
            · obtain ⟨q, base, found⟩ := merge
              obtain rfl : q = p := heq
              obtain ⟨rfl, rfl⟩ := CommitCheck.merge.inj (hcheck.symm.trans hm)
              exact Or.inl rfl
            · exact Or.inr ⟨ho, hm⟩

/-! ## Publishing merged values -/

/-- Opening the next generation for a merged value. -/
theorem ledger_publishMerge (hsole : w.managers.length = 1) (g : Generation)
    {merge : PendingMerge α} (hmade : merge.object < w.objects.length) :
    (w.publishMerge 0 g merge).2.ledger =
      { next := w.ledger.next + 1
        table := w.ledger.table ++ [(w.ledger.next, [])]
        chain := fun o =>
          if o = merge.object then
            ((w.ledger.chain o).unlink g).link
              { generation := w.ledger.next, base := some merge.base, value := merge.value }
          else w.ledger.chain o } := by
  have hmade' : merge.object < (w.modifyManager 0 (·.openNext [])).objects.length := hmade
  dsimp only [publishMerge]
  rw [ledger_modifyChain hmade', ledger_modifyManager hsole]
  rfl

/-- A merged value is not in the outline. -/
theorem outline_publishMerge (w : World α) (m : ManagerId) (g : Generation)
    (merge : PendingMerge α) : (w.publishMerge m g merge).2.outline = w.outline := by
  exact (outline_modifyChain ..).trans (w.outline_modifyManager m fun _ => rfl)

/-- Merged values are not in the outline. -/
theorem outline_publishMerges (w : World α) (m : ManagerId) (g : Generation)
    (merges : List (PendingMerge α)) : (w.publishMerges m g merges).2.outline = w.outline := by
  induction merges generalizing w with
  | nil => rfl
  | cons merge rest ih =>
    dsimp only [publishMerges]
    rw [ih, outline_publishMerge]

/-- The merged values take the next generations of the clock, and each takes the place of the
frame's own record. -/
theorem publishMerges_spec (g : Generation) {merges : List (PendingMerge α)}
    (hnodup : (merges.map (·.object)).Nodup) {w : World α} (hsole : w.managers.length = 1)
    (hmade : ∀ merge ∈ merges, merge.object < w.objects.length) :
    (w.publishMerges 0 g merges).1 = List.range' w.ledger.next merges.length ∧
      (w.publishMerges 0 g merges).2.ledger =
        { next := w.ledger.next + merges.length
          table := w.ledger.table ++
            (List.range' w.ledger.next merges.length).map fun minted => (minted, [])
          chain := fun o =>
            match published? w.ledger.next merges o with
            | none => w.ledger.chain o
            | some r => ((w.ledger.chain o).unlink g).link r } := by
  induction merges generalizing w with
  | nil => simp [publishMerges, published?]
  | cons merge rest ih =>
    rw [List.map_cons, List.nodup_cons] at hnodup
    have hout := w.outline_publishMerge 0 g merge
    have hledger := ledger_publishMerge hsole g (hmade merge List.mem_cons_self)
    have hlength := length_objects_of_identities (congrArg Outline.identities hout)
    obtain ⟨hminted, hrest⟩ := ih hnodup.2 (w := (w.publishMerge 0 g merge).2)
      ((congrArg Outline.managers hout).trans hsole)
      (fun other hother => hlength ▸ hmade other (List.mem_cons_of_mem _ hother))
    rw [hledger] at hminted hrest
    dsimp only [publishMerges]
    rw [hminted, hrest]
    refine ⟨rfl, ?_⟩
    rw [Ledger.mk.injEq]
    refine ⟨?_, ?_, funext fun o => ?_⟩
    · exact Nat.add_right_comm _ _ _
    · simp [List.range'_succ]
    · by_cases ho : merge.object = o
      · have hnone : published? (w.ledger.next + 1) rest o = none :=
          published?_eq_none_iff.mpr fun other hother heq =>
            hnodup.1 (List.mem_map.mpr ⟨other, hother, heq.trans ho.symm⟩)
        simp [published?, ho, hnone]
      · simp [published?, ho, Ne.symm ho]

/-! ## Trimming what a frame touched -/

/-- What is trimmed is not in the outline. -/
theorem outline_trimAll (w : World α) (m : ManagerId) (view : GcView)
    (objects : List ObjectId) : (w.trimAll m view objects).outline = w.outline := by
  induction objects generalizing w with
  | nil => rfl
  | cons o rest ih =>
    rw [trimAll, List.foldl_cons, ← trimAll, ih]
    exact (outline_count ..).trans (outline_modifyChain ..)

/-- Trimming objects in order trims each with the same readers. -/
theorem ledger_trimAll (m : ManagerId) {view : GcView} {objects : List ObjectId} {w : World α}
    (hview : view = w.ledger.view) (hmade : ∀ o ∈ objects, o < w.objects.length) :
    (w.trimAll m view objects).ledger = w.ledger.run (objects.map .trimmed) := by
  induction objects generalizing w with
  | nil => rfl
  | cons o rest ih =>
    have htrim : (w.modifyChain o (·.trim view)).ledger = w.ledger.apply (.trimmed o) := by
      rw [ledger_modifyChain (hmade o List.mem_cons_self), hview, Ledger.apply]
    have hlength : (w.modifyChain o (·.trim view)).objects.length = w.objects.length :=
      length_objects_modifyObject ..
    rw [trimAll, List.foldl_cons, ← trimAll, List.map_cons, Ledger.run_cons, ← htrim]
    dsimp only [trimObject]
    rw [ih, ledger_count]
    · rw [ledger_count, htrim, hview]
      rfl
    · exact fun p hp => hlength.symm ▸ hmade p (List.mem_cons_of_mem o hp)

/-! ## Committing -/

/-- What the commit of a frame has to merge, or the first conflict. -/
def pendingMerges (w : World α) (f : FrameId) :
    Except (ObjectId × Generation) (List (PendingMerge α)) :=
  w.checkTouched (w.frame f).view (w.manager 0).isOpen (w.frame f).listed

/-- What a commit of a frame does to the ledger. -/
def commitEffects (w : World α) (f : FrameId) : List (Effect α) :=
  match w.pendingMerges f with
  | .error _ => [.discarded (w.frame f).generation]
  | .ok merges =>
    .committed (w.frame f).generation merges ::
      match w.outline.config.gc with
      | .onCommit => (w.frame f).listed.map .trimmed
      | .manual => []

/-- How a commit leaves the frame. -/
def stateAfterCommit (w : World α) (f : FrameId) : FrameState :=
  match w.pendingMerges f with
  | .error _ => .discarded
  | .ok _ => .committed

/-- The result of a commit. -/
def commitResult (w : World α) (f : FrameId) : Except Refusal CommitEvent :=
  match w.pendingMerges f with
  | .error (o, committed) =>
    .error (.conflict o (w.object o).typeName (w.frame f).generation committed)
  | .ok merges =>
    .ok { generation := (w.frame f).generation, changed := (w.frame f).listed,
          merged := merges.map (·.object),
          mergedGenerations := List.range' w.ledger.next merges.length }

/-- The merged values of a commit belong to distinct objects that were made. -/
theorem of_pendingMerges (hw : w.Tidy) {f : FrameId} (hf : f < w.frames.length)
    {merges : List (PendingMerge α)} (h : w.pendingMerges f = .ok merges) :
    (merges.map (·.object)).Nodup ∧ ∀ merge ∈ merges, merge.object < w.objects.length := by
  have hfits := hw.fits f hf
  obtain ⟨hsub, -, hmem⟩ := of_checkTouched_ok h
  exact ⟨hsub.nodup hfits.nodup_listed,
    fun merge hmerge => hfits.made_listed _ ((hmem merge).mp hmerge).1⟩

/-- The merged values are published and their generations closed together with the frame's. -/
theorem ledger_publishMerges_closeAll (hw : w.Tidy) (g : Generation)
    {merges : List (PendingMerge α)} (hnodup : (merges.map (·.object)).Nodup)
    (hmade : ∀ merge ∈ merges, merge.object < w.objects.length) :
    ((w.publishMerges 0 g merges).2.modifyManager 0
      (·.closeAll (g :: (w.publishMerges 0 g merges).1))).ledger =
        w.ledger.apply (.committed g merges) := by
  obtain ⟨hminted, hledger⟩ := publishMerges_spec g hnodup hw.sole hmade
  have hout := w.outline_publishMerges 0 g merges
  rw [ledger_closeAll ((congrArg Outline.managers hout).trans hw.sole), hminted, hledger,
    Ledger.apply, Ledger.mk.injEq]
  refine ⟨rfl, ?_, rfl⟩
  have hold : w.ledger.table.filter (fun entry =>
      !(g :: List.range' w.ledger.next merges.length).contains entry.1) =
        w.ledger.table.without g := by
    refine List.filter_congr fun entry hentry => ?_
    have hlt := hw.sound.timely.minted entry hentry
    have hnotMem : entry.1 ∉ List.range' w.ledger.next merges.length :=
      fun h => Nat.not_lt_of_le (List.mem_range'_1.mp h).1 hlt
    rw [Bool.eq_iff_iff]
    simp [hnotMem]
  have hnew : ((List.range' w.ledger.next merges.length).map fun minted =>
      (minted, ([] : List Generation))).filter (fun entry =>
        !(g :: List.range' w.ledger.next merges.length).contains entry.1) = [] := by
    rw [List.filter_eq_nil_iff]
    rintro entry hentry
    obtain ⟨minted, hmem, rfl⟩ := List.mem_map.mp hentry
    simp [List.mem_range'_1.mp hmem]
  rw [List.filter_append, hold, hnew, List.append_nil]

/-- What the commit of an open frame comes to: its result, its effects on the ledger, and the state
of the frame. -/
theorem commitActive_spec (hw : w.Tidy) {f : FrameId} (hf : f < w.frames.length)
    (hactive : (w.frame f).isActive = true) :
    (w.commitActive f).1 = w.commitResult f ∧
      (w.commitActive f).2.ledger = w.ledger.run (w.commitEffects f) ∧
      (w.commitActive f).2.outline =
        w.outline.modifyFrame f fun frame => { frame with state := w.stateAfterCommit f } := by
  have hfits := hw.fits f hf
  cases hpending : w.pendingMerges f with
  | error e =>
    obtain ⟨o, committed⟩ := e
    have hunfold : w.commitActive f =
        (.error (.conflict o (w.object o).typeName (w.frame f).generation committed),
          (w.discardActive f).count 0 fun c => { c with conflicts := c.conflicts + 1 }) := by
      rw [pendingMerges] at hpending
      simp only [commitActive, hfits.manager_eq, hpending]
    rw [hunfold, commitResult, commitEffects, stateAfterCommit, hpending]
    exact ⟨rfl, (ledger_count ..).trans (ledger_discardActive hw hf hactive),
      (outline_count ..).trans (outline_discardActive w f)⟩
  | ok merges =>
    obtain ⟨hnodup, hmade⟩ := of_pendingMerges hw hf hpending
    have hminted := (publishMerges_spec (w.frame f).generation hnodup hw.sole hmade).1
    have hclosed := ledger_publishMerges_closeAll hw (w.frame f).generation hnodup hmade
    rw [hminted] at hclosed
    rw [pendingMerges] at hpending
    have hout : ((w.publishMerges 0 (w.frame f).generation merges).2.modifyManager 0
        (·.closeAll ((w.frame f).generation :: List.range' w.ledger.next merges.length))).outline =
          w.outline :=
      (outline_closeAll ..).trans (outline_publishMerges ..)
    rw [commitResult, commitEffects, stateAfterCommit, pendingMerges, hpending]
    simp only [commitActive, hfits.manager_eq, hpending, hminted]
    generalize hv : World.count (World.modifyFrame _ f _) 0 _ = v
    have hvledger : v.ledger = w.ledger.apply (.committed (w.frame f).generation merges) := by
      rw [← hv, ledger_count, ledger_modifyFrame, hclosed]
    have hvoutline : v.outline =
        w.outline.modifyFrame f fun frame => { frame with state := .committed } := by
      rw [← hv, outline_count, outline_modifyFrame, hout]
    have hids : v.outline.identities = w.outline.identities := by rw [hvoutline]; rfl
    have hlength := length_objects_of_identities hids
    have hconfig : v.outline.config = w.outline.config := by rw [hvoutline]; rfl
    have hconfig : (v.manager 0).config = w.outline.config := hconfig
    rw [hconfig, Ledger.run_cons, ledger_tell, outline_tell, ← hvledger, ← hvoutline]
    cases w.outline.config.gc with
    | manual => exact ⟨trivial, rfl, rfl⟩
    | onCommit =>
      exact ⟨trivial, ledger_trimAll 0 rfl (hlength ▸ hfits.made_listed), outline_trimAll ..⟩

/-! ## The effects of closing -/

/-- The commit check of an open frame: either the frame was shown every committed record or has
none of its own, or the outcome is that of the merge. -/
theorem checkCommit_cases (hw : w.Tidy) {f : FrameId} (hf : f < w.frames.length)
    (hactive : (w.frame f).isActive = true) (o : ObjectId) :
    ((w.object o).checkCommit (w.frame f).view (w.manager 0).isOpen = .clean ∧
      ∀ mine ∈ (w.ledger.chain o).records, mine.generation = (w.frame f).generation →
        ∀ s ∈ (w.ledger.chain o).records, s.isCommitted w.ledger.table.generations = true →
        (w.frame f).view.canSee s.generation = true) ∨
    ∃ mine base newest, (w.ledger.chain o).Contended w.ledger.next w.ledger.table
        (w.frame f).view mine base newest ∧
      (w.object o).checkCommit (w.frame f).view (w.manager 0).isOpen =
        match (w.object o).merge mine.value base.value newest.value with
        | some value => .merge newest.generation value
        | none => .conflict newest.generation := by
  obtain ⟨invalid, hview, hentry⟩ := hw.entry hf hactive
  rw [hview]
  exact Object.checkCommit_cases (hw.sound.coherent o) hentry fun h => Manager.isOpen_iff

/-- The ledger allows a commit that finds no conflict. -/
theorem admits_committed (hw : w.Tidy) {f : FrameId} (hf : f < w.frames.length)
    (hactive : (w.frame f).isActive = true) {merges : List (PendingMerge α)}
    (h : w.pendingMerges f = .ok merges) :
    w.ledger.Admits (.committed (w.frame f).generation merges) := by
  obtain ⟨invalid, hview, hentry⟩ := hw.entry hf hactive
  obtain ⟨-, hclash, hmem⟩ := of_checkTouched_ok h
  refine .committed hentry (fun o hnone mine hmine hgen => ?_) fun o r hr => ?_
  · have ho := Frame.mem_listed.mpr ((hw.fits f hf).touched hactive o mine hmine hgen)
    rw [← hview]
    rcases checkCommit_cases hw hf hactive o with ⟨-, hclean⟩ | ⟨_, _, _, -, hcheck⟩
    · exact hclean mine hmine hgen
    · split at hcheck
      · next value _ =>
        exact absurd rfl (published?_eq_none_iff.mp hnone ⟨o, _, value⟩
          ((hmem _).mpr ⟨ho, hcheck⟩))
      · exact absurd hcheck (hclash o ho _)
  · obtain ⟨⟨merge, hmerge, rfl, hbase, -⟩, -⟩ := of_published? hr
    obtain ⟨-, hfound⟩ := (hmem merge).mp hmerge
    rcases checkCommit_cases hw hf hactive merge.object with
      ⟨hclean, -⟩ | ⟨mine, base, newest, hcontended, hcheck⟩
    · rw [hclean] at hfound
      cases hfound
    · refine ⟨mine, base, newest, hview ▸ hcontended, ?_⟩
      rw [hcheck] at hfound
      split at hfound
      · rw [hbase, (CommitCheck.merge.inj hfound).1]
      · cases hfound

/-- The ledger allows everything that a commit does. -/
theorem admitsAll_commitEffects (hw : w.Tidy) {f : FrameId} (hf : f < w.frames.length)
    (hactive : (w.frame f).isActive = true) : w.ledger.AdmitsAll (w.commitEffects f) := by
  unfold commitEffects
  split
  · exact ⟨.discarded (hw.generation_mem hf hactive), trivial⟩
  · next merges hpending =>
    refine ⟨admits_committed hw hf hactive hpending, ?_⟩
    split
    · exact Ledger.admitsAll_trimmed _ _
    · trivial

/-- A commit closes no other frame and writes nothing for any. -/
theorem of_mem_commitEffects {f : FrameId} {effect : Effect α}
    (h : effect ∈ w.commitEffects f) :
    effect.writes? = none ∧ ∀ g, effect.closes? = some g → g = (w.frame f).generation := by
  unfold commitEffects at h
  split at h
  · obtain rfl := List.mem_singleton.mp h
    exact ⟨rfl, fun g hg => (Option.some.inj hg).symm⟩
  · rcases List.mem_cons.mp h with rfl | h
    · exact ⟨rfl, fun g hg => (Option.some.inj hg).symm⟩
    · split at h
      · obtain ⟨o, -, rfl⟩ := List.mem_map.mp h
        exact ⟨rfl, nofun⟩
      · cases h

/-- Closing a frame with effects that close nothing else leaves the world tidy. -/
theorem Tidy.close (hw : w.Tidy) {f : FrameId} (hf : f < w.frames.length) {v : World α}
    {state : FrameState} {effects : List (Effect α)}
    (houtline : v.outline = w.outline.modifyFrame f fun frame => { frame with state := state })
    (hstate : state ≠ .active) (hledger : v.ledger = w.ledger.run effects)
    (hadmits : w.ledger.AdmitsAll effects)
    (heffects : ∀ effect ∈ effects, effect.writes? = none ∧
      ∀ g, effect.closes? = some g → g = (w.frame f).generation) : v.Tidy := by
  have hclosed : (w.modifyFrame f fun frame => { frame with state := state }).Tidy := by
    refine hw.modifyFrame f (fun _ => rfl) fun _ hfits => hfits.of_eq rfl rfl rfl rfl fun ha => ?_
    exact absurd (beq_iff_eq.mp ha) hstate
  refine hclosed.of_effects houtline hledger hadmits ?_ ?_
  · intro h hh ha effect heffect hcloses
    rw [length_frames_modifyFrame] at hh
    rw [frame_modifyFrame hf] at ha hcloses
    split at ha
    · exact absurd (beq_iff_eq.mp ha) hstate
    · next hne =>
      rw [if_neg hne] at hcloses
      exact hne (hw.eq_of_generation_eq hh hf ((heffects effect heffect).2 _ hcloses))
  · intro h _ _ effect heffect o hlinks
    rw [Effect.links?_eq_none_of_writes? (heffects effect heffect).1] at hlinks
    cases hlinks

/-- To discard an open frame discards its generation on the ledger. -/
theorem follows_discardActive (hw : w.Tidy) {f : FrameId} (hf : f < w.frames.length)
    (hactive : (w.frame f).isActive = true) :
    Follows (w.discardActive f) w [.discarded (w.frame f).generation] := by
  have hledger : (w.discardActive f).ledger =
      w.ledger.run [.discarded (w.frame f).generation] := ledger_discardActive hw hf hactive
  have houtline := outline_discardActive w f
  have hadmits : w.ledger.AdmitsAll [.discarded (w.frame f).generation] :=
    ⟨.discarded (hw.generation_mem hf hactive), trivial⟩
  refine ⟨hw.close hf houtline nofun hledger hadmits fun effect heffect => ?_, hledger, hadmits,
    houtline ▸ .modifyFrame _ f fun _ => rfl⟩
  obtain rfl := List.mem_singleton.mp heffect
  exact ⟨rfl, fun g hg => (Option.some.inj hg).symm⟩

/-- To commit an open frame leaves a world tidy, by its effects on the ledger. -/
theorem follows_commitActive (hw : w.Tidy) {f : FrameId} (hf : f < w.frames.length)
    (hactive : (w.frame f).isActive = true) :
    Follows (w.commitActive f).2 w (w.commitEffects f) := by
  obtain ⟨-, hledger, houtline⟩ := commitActive_spec hw hf hactive
  have hadmits := admitsAll_commitEffects hw hf hactive
  refine ⟨hw.close hf houtline ?_ hledger hadmits fun effect => of_mem_commitEffects, hledger,
    hadmits, houtline ▸ .modifyFrame _ f fun _ => rfl⟩
  unfold stateAfterCommit
  split <;> nofun

end World

end VersionedObjects.Store
