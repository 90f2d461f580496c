import VersionedObjects.Proofs.Store.History

/-!
# Snapshot reads

An open frame reads its own record of an object or else the record that was the newest committed
one when the frame was opened. No effect changes what an open frame inherits, unless a value is
stored into a record of a closed frame, and none but the frame's own writes changes the frame's
record; so this holds all through the life of the frame.
-/

namespace VersionedObjects.Store

variable {α : Type}

namespace Ledger

variable {l : Ledger α}

/-! ## The life of a generation -/

/-- A generation that is open after an effect was open before it, or its frame was just opened. -/
theorem of_mem_table_apply {effect : Effect α} {entry : Generation × List Generation}
    (hentry : entry ∈ (l.apply effect).table) :
    entry ∈ l.table ∨ effect = .opened ∧ entry = (l.next, l.table.generations) := by
  cases effect with
  | opened =>
    exact (List.mem_append.mp hentry).imp_right fun hentry => ⟨rfl, List.mem_singleton.mp hentry⟩
  | committed g merges => exact Or.inl (OpenTable.mem_without.mp hentry).1
  | discarded g => exact Or.inl (OpenTable.mem_without.mp hentry).1
  | _ => exact Or.inl hentry

/-- A generation of the past that is open after an effect was open before it. -/
theorem mem_table_of_mem_apply {effect : Effect α} {entry : Generation × List Generation}
    (hentry : entry ∈ (l.apply effect).table) (hpast : entry.1 < l.next) : entry ∈ l.table := by
  refine (of_mem_table_apply hentry).resolve_right ?_
  rintro ⟨-, rfl⟩
  exact Nat.lt_irrefl _ hpast

/-- An entry of the past that is open after effects was open before them. -/
theorem mem_table_of_mem_run {effects : List (Effect α)} {entry : Generation × List Generation}
    (hentry : entry ∈ (l.run effects).table) (hpast : entry.1 < l.next) : entry ∈ l.table := by
  induction effects generalizing l with
  | nil => exact hentry
  | cons effect rest ih =>
    exact mem_table_of_mem_apply
      (ih hentry (Nat.lt_of_lt_of_le hpast (l.next_le_apply effect))) hpast

/-- The clock never runs back. -/
theorem next_le_run (l : Ledger α) (effects : List (Effect α)) :
    l.next ≤ (l.run effects).next := by
  induction effects generalizing l with
  | nil => exact Nat.le_refl _
  | cons effect rest ih => exact Nat.le_trans (l.next_le_apply effect) (ih _)

/-! ## What a frame inherits -/

/-- A value is stored only into a record of an open frame. -/
def StoresOpen (l : Ledger α) : List (Effect α) → Prop
  | [] => True
  | effect :: rest =>
    (∀ o g change, effect = .stored o g change → g ∈ l.table.generations) ∧
      (l.apply effect).StoresOpen rest

/-- A frame that is opened next inherits the newest committed record of every object. -/
theorem Sound.inherited?_next (hl : l.Sound) (o : ObjectId) :
    (l.chain o).inherited? l.table.generations (.ofFrame l.next l.table.generations) =
      l.newest? o := by
  have hc := hl.coherent o
  refine hc.ascending.newest?_congr hc.ascending fun r => and_congr_right fun hr => ?_
  have hne : r.generation ≠ l.next := Nat.ne_of_lt (hc.minted r hr)
  rw [Bool.and_eq_true, Bool.and_eq_true, Visibility.canSee_ofFrame, Visibility.canSee_snapshot,
    or_iff_right hne]

/-- No effect changes what a frame that stays open inherits, but for values that are stored into
records of closed frames. -/
theorem Sound.inherited?_apply (hl : l.Sound) {effect : Effect α} (h : l.Admits effect)
    {entry : Generation × List Generation} (hentry : entry ∈ l.table)
    (hopen : entry ∈ (l.apply effect).table)
    (hstored : ∀ o g change, effect = .stored o g change → g ∈ l.table.generations)
    (o : ObjectId) :
    ((l.apply effect).chain o).inherited? (l.apply effect).table.generations
        (.ofFrame entry.1 entry.2) =
      (l.chain o).inherited? l.table.generations (.ofFrame entry.1 entry.2) := by
  have hempty {p : ObjectId} (hp : (l.chain p).records = []) :
      (l.chain p).inherited? l.table.generations (.ofFrame entry.1 entry.2) = none :=
    Chain.inherited?_eq_none_iff.mpr (by simp [hp])
  cases h with
  | opened => exact (hl.coherent o).inherited?_openNext _ _
  | @founded p g value hp hg =>
    rw [Ledger.apply, modifyChain_chain]
    split
    · next heq =>
      subst heq
      rw [hempty hp, Chain.inherited?_eq_none_iff]
      intro r hr hcommitted
      rw [List.mem_singleton.mp hr] at hcommitted
      exact absurd hg (Record.isCommitted_iff.mp hcommitted).2
    · rfl
  | @created p value hp =>
    rw [Ledger.apply, modifyChain_chain]
    split
    · next heq =>
      subst heq
      rw [hempty hp, Chain.inherited?_eq_none_iff]
      intro r hr _
      rw [List.mem_singleton.mp hr, Bool.eq_false_iff]
      intro hsee
      exact absurd (Visibility.le_of_canSee_ofFrame hsee)
        (Nat.not_le_of_lt (hl.timely.minted entry hentry))
    · rfl
  | @branched p r base invalid hr hnew _ _ _ =>
    rw [Ledger.apply, modifyChain_chain]
    split
    · next heq =>
      subst heq
      exact (hl.coherent o).ascending.inherited?_link hnew
        (OpenTable.mem_generations.mpr ⟨invalid, hr⟩) _
    · rfl
  | @committed g invalid merges hg hclean hmerged =>
    have hgen : g ∈ l.table.generations := OpenTable.mem_generations.mpr ⟨invalid, hg⟩
    have hc := hl.coherent o
    dsimp only [Ledger.apply]
    cases hpublished : published? l.next merges o with
    | none => exact hc.ascending.inherited?_without hl.timely hgen hopen
    | some r =>
      obtain ⟨mine, base, newest, hcontended, -⟩ := hmerged o r hpublished
      obtain ⟨hmine, hminegen⟩ := Chain.mem_of_find? hcontended.mine_eq
      exact hc.inherited?_publish hl.timely hgen hmine hminegen (hcontended.mem_newest hc)
        (hcontended.newest_committed hc) (of_published? hpublished).2.1 hopen
  | discarded hg =>
    obtain ⟨invalid, hg⟩ := OpenTable.mem_generations.mp hg
    exact (hl.coherent o).inherited?_discard hg _
  | trimmed p =>
    rw [Ledger.apply, modifyChain_chain]
    split
    · exact (hl.coherent o).inherited?_trim hl.timely rfl rfl
        (OpenTable.mem_readers.mpr (Or.inl ⟨entry, hentry, rfl⟩))
    · rfl
  | stored p g change =>
    rw [Ledger.apply, modifyChain_chain]
    split
    · -- What is inherited is committed, so it is not of the open generation.
      rw [Chain.inherited?_store, modifyChain_table]
      cases hinherited : (l.chain o).inherited? l.table.generations
          (.ofFrame entry.1 entry.2) with
      | none => rfl
      | some r =>
        obtain ⟨-, hcommitted, -⟩ :=
          (hl.coherent o).ascending.inherited?_eq_some_iff.mp hinherited
        have hne : r.generation ≠ g := fun heq =>
          (Record.isCommitted_iff.mp hcommitted).2 (heq ▸ hstored p g change rfl)
        rw [Option.map_some, Record.stored, if_neg hne]
    · rfl

/-! ## The frame's own record -/

/-- No effect but a write for the frame changes the record of an open frame. -/
theorem Sound.mem_chain_apply_iff (hl : l.Sound) {effect : Effect α} (h : l.Admits effect)
    {r : Record α} (hg : r.generation ∈ l.table.generations)
    (hopen : r.generation ∈ (l.apply effect).table.generations) {o : ObjectId}
    (hwrites : effect.writes? ≠ some (o, r.generation)) :
    r ∈ ((l.apply effect).chain o).records ↔ r ∈ (l.chain o).records := by
  have hnext : r.generation < l.next := hl.timely.lt_of_mem hg
  cases h with
  | opened => exact Iff.rfl
  | @founded p g value hp _ =>
    rw [Ledger.apply, modifyChain_chain]
    split
    · next heq =>
      subst heq
      rw [hp]
      refine iff_of_false (fun hr => hwrites ?_) (by simp)
      rw [List.mem_singleton.mp hr]
      rfl
    · exact Iff.rfl
  | @created p value hp =>
    rw [Ledger.apply, modifyChain_chain]
    split
    · next heq =>
      subst heq
      rw [hp]
      refine iff_of_false (fun hr => ?_) (by simp)
      rw [List.mem_singleton.mp hr] at hnext
      exact absurd hnext (Nat.lt_irrefl _)
    · exact Iff.rfl
  | @branched p s _ _ _ hnew _ _ _ =>
    rw [Ledger.apply, modifyChain_chain]
    split
    · next heq =>
      subst heq
      rw [Chain.mem_link hnew, or_iff_right]
      rintro rfl
      exact hwrites rfl
    · exact Iff.rfl
  | @committed g invalid merges hentry _ hmerged =>
    have hc := hl.coherent o
    have hne : r.generation ≠ g := (OpenTable.mem_generations_without.mp hopen).2
    dsimp only [Ledger.apply]
    cases hpublished : published? l.next merges o with
    | none => exact Iff.rfl
    | some s =>
      obtain ⟨mine, base, newest, hcontended, -⟩ := hmerged o s hpublished
      have hle := (of_published? hpublished).2.1
      dsimp only
      rw [hcontended.mem_publish hc (OpenTable.mem_generations.mpr ⟨invalid, hentry⟩) hle]
      refine ⟨fun hr => hr.elim (fun heq => ?_) And.left, fun hr => Or.inr ⟨hr, hne⟩⟩
      rw [heq] at hnext
      exact absurd hnext (Nat.not_lt_of_le hle)
  | @discarded g _ =>
    exact Chain.mem_discard_of_ne (OpenTable.mem_generations_without.mp hopen).2
  | trimmed p =>
    have hasc := (hl.coherent o).ascending
    rw [Ledger.apply, modifyChain_chain]
    split
    · exact ⟨fun hr => (hasc.trim_sublist _).subset hr, fun hr => hasc.mem_trim_of_open hr hg⟩
    · exact Iff.rfl
  | stored p g change =>
    rw [Ledger.apply, modifyChain_chain]
    split
    · next heq =>
      subst heq
      have hne : r.generation ≠ g := fun heq => hwrites (by rw [heq]; rfl)
      rw [Chain.mem_store]
      constructor
      · rintro ⟨s, hs, rfl⟩
        rw [Record.stored_generation] at hne
        rwa [Record.stored, if_neg hne]
      · exact fun hr => ⟨r, hr, if_neg hne⟩
    · exact Iff.rfl

/-- An open generation keeps its own record through an effect that does not write it. -/
theorem Sound.find?_apply (hl : l.Sound) {effect : Effect α} (h : l.Admits effect)
    {g : Generation} (hg : g ∈ l.table.generations)
    (hopen : g ∈ (l.apply effect).table.generations) {o : ObjectId}
    (hwrites : effect.writes? ≠ some (o, g)) :
    ((l.apply effect).chain o).find? g = (l.chain o).find? g := by
  refine ((hl.apply h).coherent o).ascending.find?_congr ?_
  rintro r rfl
  exact hl.mem_chain_apply_iff h hg hopen hwrites

/-- An open frame keeps its record, and has one once a record was linked for it. -/
theorem Sound.isSome_find?_apply (hl : l.Sound) {effect : Effect α} (h : l.Admits effect)
    {g : Generation} (hg : g ∈ l.table.generations)
    (hopen : g ∈ (l.apply effect).table.generations) {o : ObjectId}
    (hmine : ((l.chain o).find? g).isSome = true ∨ effect.links? = some (o, g)) :
    (((l.apply effect).chain o).find? g).isSome = true := by
  by_cases hwrites : effect.writes? = some (o, g)
  · cases h with
    | founded =>
      obtain ⟨rfl, rfl⟩ := Prod.mk.inj (Option.some.inj hwrites)
      simp [Ledger.apply, Ledger.modifyChain, Chain.singleton, Chain.find?]
    | @branched p r _ _ _ hnew _ _ _ =>
      obtain ⟨rfl, rfl⟩ := Prod.mk.inj (Option.some.inj hwrites)
      rw [Ledger.apply, modifyChain_chain, if_pos rfl, Option.isSome_iff_ne_none, ne_eq,
        Chain.find?_eq_none_iff]
      exact fun hnone => hnone r ((Chain.mem_link hnew).mpr (Or.inl rfl)) rfl
    | stored =>
      obtain ⟨rfl, rfl⟩ := Prod.mk.inj (Option.some.inj hwrites)
      rw [Ledger.apply, modifyChain_chain, if_pos rfl, Chain.find?_store, Option.isSome_map]
      exact hmine.resolve_right (Option.some_ne_none _).symm
    | _ => cases hwrites
  · rw [hl.find?_apply h hg hopen hwrites]
    refine hmine.resolve_right fun hlinks => hwrites ?_
    cases effect with
    | stored => cases hlinks
    | _ => exact hlinks

/-! ## Runs of effects -/

section Run

variable {effects : List (Effect α)} {entry : Generation × List Generation}

/-- What holds of every effect of a run while a generation is open, by induction on the run. -/
theorem Sound.inherited?_run (hl : l.Sound) (hadmits : l.AdmitsAll effects)
    (hstores : l.StoresOpen effects) (hentry : entry ∈ l.table)
    (hopen : entry ∈ (l.run effects).table) (o : ObjectId) :
    ((l.run effects).chain o).inherited? (l.run effects).table.generations
        (.ofFrame entry.1 entry.2) =
      (l.chain o).inherited? l.table.generations (.ofFrame entry.1 entry.2) := by
  induction effects generalizing l with
  | nil => rfl
  | cons effect rest ih =>
    have hnext := hl.timely.minted entry hentry
    have hstay : entry ∈ (l.apply effect).table :=
      mem_table_of_mem_run hopen (Nat.lt_of_lt_of_le hnext (l.next_le_apply effect))
    exact (ih (hl.apply hadmits.1) hadmits.2 hstores.2 hstay hopen).trans
      (hl.inherited?_apply hadmits.1 hentry hstay hstores.1 o)

/-- An open generation keeps its own record through effects that do not write it. -/
theorem Sound.find?_run (hl : l.Sound) (hadmits : l.AdmitsAll effects) (hentry : entry ∈ l.table)
    (hopen : entry ∈ (l.run effects).table) {o : ObjectId}
    (hwrites : ∀ effect ∈ effects, effect.writes? ≠ some (o, entry.1)) :
    ((l.run effects).chain o).find? entry.1 = (l.chain o).find? entry.1 := by
  induction effects generalizing l with
  | nil => rfl
  | cons effect rest ih =>
    have hnext := hl.timely.minted entry hentry
    have hstay : entry ∈ (l.apply effect).table :=
      mem_table_of_mem_run hopen (Nat.lt_of_lt_of_le hnext (l.next_le_apply effect))
    exact (ih (hl.apply hadmits.1) hadmits.2 hstay hopen
        fun other hother => hwrites other (List.mem_cons_of_mem _ hother)).trans
      (hl.find?_apply hadmits.1 (OpenTable.mem_generations.mpr ⟨_, hentry⟩)
        (OpenTable.mem_generations.mpr ⟨_, hstay⟩) (hwrites effect List.mem_cons_self))

/-- An open generation has a record of its own once it had one or one was linked. -/
theorem Sound.isSome_find?_run (hl : l.Sound) (hadmits : l.AdmitsAll effects)
    (hentry : entry ∈ l.table) (hopen : entry ∈ (l.run effects).table) {o : ObjectId}
    (hmine : ((l.chain o).find? entry.1).isSome = true ∨
      ∃ effect ∈ effects, effect.links? = some (o, entry.1)) :
    (((l.run effects).chain o).find? entry.1).isSome = true := by
  induction effects generalizing l with
  | nil => exact hmine.resolve_right (by simp)
  | cons effect rest ih =>
    have hnext := hl.timely.minted entry hentry
    have hstay : entry ∈ (l.apply effect).table :=
      mem_table_of_mem_run hopen (Nat.lt_of_lt_of_le hnext (l.next_le_apply effect))
    have hfirst := hl.isSome_find?_apply hadmits.1 (OpenTable.mem_generations.mpr ⟨_, hentry⟩)
      (OpenTable.mem_generations.mpr ⟨_, hstay⟩) (o := o)
    refine ih (hl.apply hadmits.1) hadmits.2 hstay hopen ?_
    rcases hmine with hmine | ⟨other, hother, hlinks⟩
    · exact Or.inl (hfirst (Or.inl hmine))
    · rcases List.mem_cons.mp hother with rfl | hother
      · exact Or.inl (hfirst (Or.inr hlinks))
      · exact Or.inr ⟨other, hother, hlinks⟩

/-- Effects that store nothing store into no closed record. -/
theorem storesOpen_of_not_stored {l : Ledger α}
    (h : ∀ effect ∈ effects, ∀ o g change, effect ≠ .stored o g change) :
    l.StoresOpen effects := by
  induction effects generalizing l with
  | nil => trivial
  | cons effect rest ih =>
    exact ⟨fun o g change heq => absurd heq (h effect List.mem_cons_self o g change),
      ih fun other hother => h other (List.mem_cons_of_mem _ hother)⟩

end Run

end Ledger

namespace World

variable {w : World α}

/-! ## Calls -/

/-- Who writes in a call has a frame. -/
theorem lt_of_writes (hw : w.Tidy) {call : Call α} {f : FrameId} {o : ObjectId}
    (h : w.Writes call f o) : f < w.frames.length := by
  obtain ⟨hwriter, hrecord⟩ := h
  cases call with
  | construct typeName merge initial =>
    obtain ⟨g, hg, heq⟩ := Option.map_eq_some_iff.mp hwriter
    obtain ⟨rfl, -⟩ := Prod.mk.inj heq
    exact (of_makingFrame? hw hg).1
  | write p change =>
    obtain ⟨g, hg, heq⟩ := Option.map_eq_some_iff.mp hwriter
    obtain ⟨rfl, -⟩ := Prod.mk.inj heq
    exact hw.current g hg
  | writeIn g p change =>
    obtain ⟨rfl, rfl⟩ := Prod.mk.inj (Option.some.inj hwriter)
    rw [perform] at hrecord
    split at hrecord
    · next hknown => exact hasFrame_iff.mp (Bool.and_eq_true_iff.mp hknown).1
    · cases hrecord
  | _ => cases hwriter

/-- A write that nobody interrupts stores its value into a record of the open frame. -/
theorem storesOpen_writeEffects (hw : w.Tidy) {f : FrameId} (hf : f < w.frames.length)
    (o : ObjectId) (change : α → α) (hclosing : w.closingOnWrite? f o = none) :
    w.ledger.StoresOpen (w.writeEffects f o change) := by
  rw [writeEffects_undisturbed change hclosing]
  cases hprepare : w.prepareWrite f o with
  | mk result v =>
  cases result with
  | error violation => trivial
  | ok r =>
    have hgen : r.generation ∈ w.ledger.table.generations := by
      rw [generation_of_prepareWrite hprepare]
      exact hw.generation_mem hf (of_prepareWrite hprepare).1
    have hlast {l : Ledger α} (h : r.generation ∈ l.table.generations) :
        l.StoresOpen [.stored o r.generation change] :=
      ⟨fun p g other heq => (Effect.stored.inj heq).2.1 ▸ h, trivial⟩
    dsimp only [linkEffects]
    split
    · exact hlast hgen
    · exact ⟨nofun, hlast hgen⟩

/-- A call in which no observer closes a frame stores a value only into a record of an open
frame. -/
theorem storesOpen_effects (hw : w.Tidy) {call : Call α} (hclosing : w.closing? call = none) :
    w.ledger.StoresOpen (w.effects call) := by
  have hother (h : w.writer? call = none) : w.ledger.StoresOpen (w.effects call) := by
    refine Ledger.storesOpen_of_not_stored fun effect heffect o g change heq => ?_
    subst heq
    obtain ⟨f, -, hwriter, -⟩ := exists_writes_of_mem_effects heffect rfl
    rw [h] at hwriter
    cases hwriter
  cases hknown : w.knows call with
  | false =>
    rw [effects, hknown]
    trivial
  | true =>
    unfold closing? at hclosing
    rw [if_pos hknown] at hclosing
    cases call with
    | construct typeName merge initial =>
      rw [effects, if_pos hknown]
      refine Ledger.storesOpen_of_not_stored fun effect heffect o g change heq => ?_
      rw [List.mem_singleton.mp heffect, makingEffect] at heq
      split at heq <;> cases heq
    | write o change =>
      cases hcurrent : w.current with
      | none => exact hother (by rw [writer?, hcurrent]; rfl)
      | some f =>
        rw [effects, if_pos hknown]
        dsimp only [actEffects]
        rw [hcurrent] at hclosing ⊢
        exact storesOpen_writeEffects hw (hw.current f hcurrent) o change hclosing
    | writeIn f o change =>
      rw [effects, if_pos hknown]
      exact storesOpen_writeEffects hw (hasFrame_iff.mp (Bool.and_eq_true_iff.mp hknown).1) o
        change hclosing
    | _ => exact hother rfl

/-- A frame that is open at the end of a run was open all through it, with the same view. -/
theorem entry_of_active_after (hw : w.Tidy) {f : FrameId} (hf : f < w.frames.length)
    {calls : List (Call α)} (hactive : ((w.after calls).frame f).isActive = true) :
    ((w.after calls).frame f).view = (w.frame f).view ∧
      ∃ invalid, (w.frame f).view = .ofFrame (w.frame f).generation invalid ∧
        ((w.frame f).generation, invalid) ∈ (w.after calls).ledger.table := by
  obtain ⟨hf', hview⟩ := frame_of_keeps (hw.keeps_after calls) hf
  obtain ⟨invalid, hentry⟩ := (hw.after calls).entry hf' hactive
  have hgen : ((w.after calls).frame f).generation = (w.frame f).generation :=
    congrArg Visibility.generation hview
  rw [hview, hgen] at hentry
  exact ⟨hview, invalid, hentry⟩

section Life

variable {f : FrameId} {invalid : List Generation}

/-- No call changes what an open frame inherits. -/
theorem inherited?_step (hw : w.Tidy) (hf : f < w.frames.length) {call : Call α}
    (hclosing : w.closing? call = none)
    (hopen : ((w.frame f).generation, invalid) ∈ (w.step call).ledger.table) (o : ObjectId) :
    ((w.step call).ledger.chain o).inherited? (w.step call).ledger.table.generations
        (.ofFrame (w.frame f).generation invalid) =
      (w.ledger.chain o).inherited? w.ledger.table.generations
        (.ofFrame (w.frame f).generation invalid) := by
  have hfollows := follows_step hw call
  rw [hfollows.ledger_eq] at hopen ⊢
  exact hw.sound.inherited?_run hfollows.admits (storesOpen_effects hw hclosing)
    (Ledger.mem_table_of_mem_run hopen (hw.fits f hf).minted) hopen o

/-- Only the frame's own writes change its record of an object. -/
theorem find?_step (hw : w.Tidy) (hf : f < w.frames.length) {call : Call α}
    (hopen : ((w.frame f).generation, invalid) ∈ (w.step call).ledger.table) {o : ObjectId}
    (hwrites : ¬ w.Writes call f o) :
    ((w.step call).ledger.chain o).find? (w.frame f).generation =
      (w.ledger.chain o).find? (w.frame f).generation := by
  have hfollows := follows_step hw call
  rw [hfollows.ledger_eq] at hopen ⊢
  refine hw.sound.find?_run hfollows.admits
    (Ledger.mem_table_of_mem_run hopen (hw.fits f hf).minted) hopen fun effect heffect heq => ?_
  obtain ⟨h, hgen, hwrites'⟩ := exists_writes_of_mem_effects heffect heq
  obtain rfl := hw.eq_of_generation_eq (lt_of_writes hw hwrites') hf hgen
  exact hwrites hwrites'

/-- A frame has a record of an object from the first call that writes it on. -/
theorem isSome_find?_step (hw : w.Tidy) (hf : f < w.frames.length) {call : Call α}
    (hopen : ((w.frame f).generation, invalid) ∈ (w.step call).ledger.table) {o : ObjectId}
    (hmine : ((w.ledger.chain o).find? (w.frame f).generation).isSome = true ∨
      w.Writes call f o) :
    (((w.step call).ledger.chain o).find? (w.frame f).generation).isSome = true := by
  have hfollows := follows_step hw call
  rw [hfollows.ledger_eq] at hopen ⊢
  refine hw.sound.isSome_find?_run hfollows.admits
    (Ledger.mem_table_of_mem_run hopen (hw.fits f hf).minted) hopen ?_
  exact hmine.elim Or.inl links_of_writes

/-! ## Runs -/

/-- A generation of the past that is open after a run was open before it. -/
theorem mem_table_of_mem_after (hw : w.Tidy) {calls : List (Call α)}
    {entry : Generation × List Generation} (hentry : entry ∈ (w.after calls).ledger.table)
    (hpast : entry.1 < w.ledger.next) : entry ∈ w.ledger.table := by
  induction calls generalizing w with
  | nil => exact hentry
  | cons call rest ih =>
    have hfollows := follows_step hw call
    have hle : w.ledger.next ≤ (w.step call).ledger.next := by
      rw [hfollows.ledger_eq]
      exact Ledger.next_le_run _ _
    have hstep := ih hfollows.tidy hentry (Nat.lt_of_lt_of_le hpast hle)
    rw [hfollows.ledger_eq] at hstep
    exact Ledger.mem_table_of_mem_run hstep hpast

/-- All through a run, an open frame inherits what it did at the start, and its record of an object
is there from its first write on. -/
theorem reads_after (hw : w.Tidy) (hf : f < w.frames.length) {calls : List (Call α)}
    (hundisturbed : w.Undisturbed calls)
    (hopen : ((w.frame f).generation, invalid) ∈ (w.after calls).ledger.table) (o : ObjectId) :
    ((w.after calls).ledger.chain o).inherited? (w.after calls).ledger.table.generations
        (.ofFrame (w.frame f).generation invalid) =
      (w.ledger.chain o).inherited? w.ledger.table.generations
        (.ofFrame (w.frame f).generation invalid) ∧
    (¬ w.Wrote calls f o → ((w.after calls).ledger.chain o).find? (w.frame f).generation =
      (w.ledger.chain o).find? (w.frame f).generation) ∧
    (((w.ledger.chain o).find? (w.frame f).generation).isSome = true ∨ w.Wrote calls f o →
      (((w.after calls).ledger.chain o).find? (w.frame f).generation).isSome = true) := by
  induction calls generalizing w with
  | nil => exact ⟨rfl, fun _ => rfl, fun h => h.resolve_right not_wrote_nil⟩
  | cons call rest ih =>
    obtain ⟨hclosing, hrest⟩ := undisturbed_cons.mp hundisturbed
    have hstep := hw.step call
    obtain ⟨hf', hview⟩ := frame_of_keeps (follows_step hw call).keeps hf
    have hgen : ((w.step call).frame f).generation = (w.frame f).generation :=
      congrArg Visibility.generation hview
    have hstay : ((w.frame f).generation, invalid) ∈ (w.step call).ledger.table :=
      mem_table_of_mem_after hstep hopen (hgen ▸ (hstep.fits f hf').minted)
    obtain ⟨hinherited, hsame, hmine⟩ := ih hstep hf' hrest (hgen.symm ▸ hopen)
    rw [hgen] at hinherited hsame hmine
    rw [wrote_cons]
    refine ⟨hinherited.trans (inherited?_step hw hf hclosing hstay o), fun hnot => ?_, ?_⟩
    · rw [not_or] at hnot
      exact (hsame hnot.2).trans (find?_step hw hf hstay hnot.1)
    · rintro (hfound | hwrites | hlater)
      · exact hmine (Or.inl (isSome_find?_step hw hf hstay (Or.inl hfound)))
      · exact hmine (Or.inl (isSome_find?_step hw hf hstay (Or.inr hwrites)))
      · exact hmine (Or.inr hlater)

end Life

/-! ## A frame from its opening on -/

/-- An open frame selects its own record, or what it inherits. -/
theorem select?_view (hw : w.Tidy) {f : FrameId} {invalid : List Generation}
    (hview : (w.frame f).view = .ofFrame (w.frame f).generation invalid)
    (hentry : ((w.frame f).generation, invalid) ∈ w.ledger.table) (o : ObjectId) :
    w.select? o (w.frame f).view =
      ((w.ledger.chain o).find? (w.frame f).generation).or
        ((w.ledger.chain o).inherited? w.ledger.table.generations
          (.ofFrame (w.frame f).generation invalid)) := by
  rw [select?, hview]
  exact (hw.sound.coherent o).select?_ofFrame hw.sound.timely hentry

/-- A frame that was opened is the last one, and its generation was the next of the clock. -/
theorem of_opened (hw : w.Tidy) {options : FrameOptions} {f : FrameId}
    (h : (w.perform (.openFrame options)).1 = .opened (.ok f)) :
    let v := w.step (.openFrame options)
    f = w.frames.length ∧ v.ledger = w.ledger.apply .opened ∧ f < v.frames.length ∧
      v.frame f = w.nextFrame options := by
  have hresult : (w.openFrame 0 options).1 = .ok f := Answer.opened.inj h
  by_cases hfull : w.outline.config.maxOpenFrames ≤ w.ledger.table.length
  · rw [openFrame_full options hfull] at hresult
    cases hresult
  · obtain ⟨hfirst, hledger, houtline⟩ := openFrame_spec hw.sole options hfull
    obtain rfl := Except.ok.inj (hfirst.symm.trans hresult)
    have hframes : (w.openFrame 0 options).2.frames = w.frames ++ [w.nextFrame options] :=
      congrArg Outline.frames houtline
    refine ⟨rfl, hledger, ?_, ?_⟩
    · change _ < (w.openFrame 0 options).2.frames.length
      simp [hframes]
    · change (w.openFrame 0 options).2.frame _ = _
      simp [frame, hframes]

/-- A call that is no write of the frame leaves alone what the frame reads, as long as the frame
stays open. -/
theorem select?_step (hw : w.Tidy) {f : FrameId} (hf : f < w.frames.length) {call : Call α}
    (hclosing : w.closing? call = none)
    (hactive : ((w.step call).frame f).isActive = true) {o : ObjectId}
    (hwrites : ¬ w.Writes call f o) :
    (w.step call).select? o ((w.step call).frame f).view = w.select? o (w.frame f).view := by
  have hstep : w.step call = w.after [call] := rfl
  obtain ⟨hview, invalid, hframe, hopen⟩ := entry_of_active_after hw hf (hstep ▸ hactive)
  rw [← hstep] at hview hopen
  have hgen : ((w.step call).frame f).generation = (w.frame f).generation :=
    congrArg Visibility.generation hview
  have hstay := mem_table_of_mem_after hw (hstep ▸ hopen) (hw.fits f hf).minted
  rw [select?_view hw hframe hstay,
    select?_view (hw.step call) (by rw [hgen, hview, hframe]) (hgen.symm ▸ hopen), hgen,
    find?_step hw hf hopen hwrites, inherited?_step hw hf hclosing hopen]

/-- **Snapshot reads.** In a run of one manager in which no observer closes a frame during a write,
an open frame reads its own record of an object if it made or wrote the object, and otherwise the
record that was the newest committed one when the frame was opened, if there was one. No call but a
write of the frame itself changes what it reads. -/
theorem snapshot_reads (config : Config) (before after : List (Call α)) (options : FrameOptions)
    {f : FrameId}
    (hopened : (((start α config).after before).perform (.openFrame options)).1 =
      .opened (.ok f))
    (hundisturbed : (start α config).Undisturbed (before ++ .openFrame options :: after))
    (hactive : (((start α config).after (before ++ .openFrame options :: after)).frame f).isActive =
      true) (o : ObjectId) :
    let opening := (start α config).after before
    let w := (start α config).after (before ++ .openFrame options :: after)
    ((opening.step (.openFrame options)).Wrote after f o →
      ∃ r, (w.object o).chain.find? (w.frame f).generation = some r ∧
        w.select? o (w.frame f).view = some r) ∧
    (¬ (opening.step (.openFrame options)).Wrote after f o →
      w.select? o (w.frame f).view = opening.selectCommitted? o) ∧
    ∀ call, w.closing? call = none → ((w.step call).frame f).isActive = true →
      ¬ w.Writes call f o →
      (w.step call).select? o ((w.step call).frame f).view = w.select? o (w.frame f).view := by
  have hstart := (tidy_start α config).after before
  obtain ⟨-, hrest⟩ := undisturbed_append.mp hundisturbed
  obtain ⟨-, hrest⟩ := undisturbed_cons.mp hrest
  dsimp only
  rw [after_append, after_cons] at hactive ⊢
  generalize (start α config).after before = opening at *
  obtain ⟨-, hledger, hf, hframe⟩ := of_opened hstart hopened
  have hv := hstart.step (.openFrame options)
  generalize opening.step (.openFrame options) = v at *
  obtain ⟨hview, invalid, hviewv, hopen⟩ := entry_of_active_after hv hf hactive
  have hgen : (v.frame f).generation = opening.ledger.next := by rw [hframe]; rfl
  have hinvalid : invalid = opening.ledger.table.generations := by
    rw [hframe] at hviewv
    exact (congrArg Visibility.invalid hviewv).symm
  have hchain : v.ledger.chain o = opening.ledger.chain o := by rw [hledger]; rfl
  have hfresh : (v.ledger.chain o).find? (v.frame f).generation = none := by
    rw [hchain, hgen, Chain.find?_eq_none_iff]
    exact fun r hr => Nat.ne_of_lt ((hstart.sound.coherent o).minted r hr)
  have hinherits : (v.ledger.chain o).inherited? v.ledger.table.generations
      (.ofFrame (v.frame f).generation invalid) = opening.selectCommitted? o := by
    rw [hgen, hinvalid, hstart.selectCommitted?_eq, ← hstart.sound.inherited?_next, hledger]
    exact (hstart.sound.coherent o).inherited?_openNext _ _
  obtain ⟨hinherited, hsame, hmine⟩ := reads_after hv hf hrest hopen o
  have hw := hv.after after
  obtain ⟨hfw, -⟩ := frame_of_keeps (hv.keeps_after after) hf
  have hgenw : ((v.after after).frame f).generation = (v.frame f).generation :=
    congrArg Visibility.generation hview
  have hselect := select?_view hw (by rw [hgenw, hview, hviewv]) (hgenw.symm ▸ hopen) o
  rw [hgenw, hinherited, hinherits] at hselect
  refine ⟨fun hwrote => ?_, fun hnot => ?_, fun call hclosing hstays hwrites =>
    select?_step hw hfw hclosing hstays hwrites⟩
  · obtain ⟨r, hr⟩ := Option.isSome_iff_exists.mp (hmine (Or.inr hwrote))
    refine ⟨r, hgenw.symm ▸ hr, ?_⟩
    rw [hselect, hr, Option.some_or]
  · rw [hselect, hsame hnot, hfresh, Option.none_or]

/-- A frame goes on reading what was committed when it was opened, although another frame has
committed a newer value. -/
theorem snapshot_reads_beside_commit :
    let calls : List (Call Nat) := [.openFrame {}, .writeIn 1 0 fun _ => 7, .commit 1]
    let w := (start Nat { gc := .manual }).after
      ([.construct "Counter" (fun _ _ _ => none) 5] ++ .openFrame {} :: calls)
    w.select? 0 (w.frame 0).view = some { generation := 1, base := none, value := 5 } ∧
      w.selectCommitted? 0 = some { generation := 3, base := some 1, value := 7 } := by
  intro calls w
  have hundisturbed : (start Nat { gc := .manual }).Undisturbed
      ([.construct "Counter" (fun _ _ _ => none) 5] ++ .openFrame {} :: calls) := by
    simp only [calls, List.cons_append, List.nil_append, undisturbed_cons]
    exact ⟨rfl, rfl, rfl, rfl, rfl, undisturbed_nil⟩
  have hreads := snapshot_reads { gc := .manual }
    [.construct "Counter" (fun _ _ _ => none) 5] calls {} (f := 0) rfl hundisturbed rfl 0
  refine ⟨(hreads.2.1 ?_).trans rfl, rfl⟩
  simp only [calls, wrote_cons, not_or]
  exact ⟨by decide, by decide, by decide, not_wrote_nil⟩

end World

end VersionedObjects.Store
