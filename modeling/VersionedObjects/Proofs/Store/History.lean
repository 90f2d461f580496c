import VersionedObjects.Proofs.Store.Calls

/-!
# What happens in a run

For every call: the frame and the object it writes, what an observer does to the frame that writes,
and the commit that is attempted, if one is. Each is read off the world in which the call is made,
and each is tied to the effects of the call.
-/

namespace VersionedObjects.Store

variable {α : Type}

/-- The call made an object, or found the record that it asked for. -/
def Answer.hasRecord : Answer α → Bool
  | .made _ | .record (.ok _) => true
  | _ => false

namespace World

variable {w : World α}

/-- Some call of the run is as described, in the world in which it is made. -/
def Occurs (p : World α → Call α → Prop) (w : World α) (calls : List (Call α)) : Prop :=
  ∃ before call rest, calls = before ++ call :: rest ∧ p (w.after before) call

/-- In the empty run nothing occurs. -/
theorem not_occurs_nil {p : World α → Call α → Prop} : ¬ w.Occurs p [] := by
  rintro ⟨before, call, rest, hsplit, -⟩
  simp at hsplit

/-- What occurs in a run occurs at its first call or later. -/
theorem occurs_cons {p : World α → Call α → Prop} {call : Call α} {rest : List (Call α)} :
    w.Occurs p (call :: rest) ↔ p w call ∨ (w.step call).Occurs p rest := by
  constructor
  · rintro ⟨before, other, tail, hsplit, hother⟩
    cases before with
    | nil =>
      obtain ⟨rfl, -⟩ := List.cons.inj hsplit
      exact Or.inl hother
    | cons first before =>
      obtain ⟨rfl, htail⟩ := List.cons.inj hsplit
      exact Or.inr ⟨before, other, tail, htail, hother⟩
  · rintro (hcall | ⟨before, other, tail, rfl, hother⟩)
    · exact ⟨[], call, rest, rfl, hcall⟩
    · exact ⟨call :: before, other, tail, rfl, hother⟩

/-! ## Writes -/

/-- The frame in which a call makes or writes an object, and the object. -/
def writer? (w : World α) : Call α → Option (FrameId × ObjectId)
  | .construct .. => (w.makingFrame? 0).map (·, w.objects.length)
  | .write o _ => w.current.map (·, o)
  | .writeIn f o _ => some (f, o)
  | _ => none

/-- The call makes the object in the frame or writes it there, and is no violation. -/
def Writes (w : World α) (call : Call α) (f : FrameId) (o : ObjectId) : Prop :=
  w.writer? call = some (f, o) ∧ (w.perform call).1.hasRecord = true

instance (w : World α) (call : Call α) (f : FrameId) (o : ObjectId) :
    Decidable (w.Writes call f o) :=
  inferInstanceAs (Decidable (_ ∧ _))

/-- Some call of the run makes the object in the frame or writes it there. -/
def Wrote (w : World α) (calls : List (Call α)) (f : FrameId) (o : ObjectId) : Prop :=
  ∃ before call rest, calls = before ++ call :: rest ∧ (w.after before).Writes call f o

/-- In the empty run nothing is written. -/
theorem not_wrote_nil {f : FrameId} {o : ObjectId} : ¬ w.Wrote [] f o :=
  not_occurs_nil (p := fun v call => v.Writes call f o)

/-- What a run writes its first call writes, or a later one. -/
theorem wrote_cons {call : Call α} {rest : List (Call α)} {f : FrameId} {o : ObjectId} :
    w.Wrote (call :: rest) f o ↔ w.Writes call f o ∨ (w.step call).Wrote rest f o :=
  occurs_cons (p := fun v call => v.Writes call f o)

/-- What the observer does to the frame when the frame writes an object. -/
def closingOnWrite? (w : World α) (f : FrameId) (o : ObjectId) : Option Closing :=
  match w.prepareWrite f o with
  | (.error _, _) => none
  | (.ok _, _) =>
    if (w.frame f).written.contains o || !(w.frame f).options.observed then none
    else (w.frame f).options.closing?

/-- What an observer does to the frame that writes, in a call. -/
def closing? (w : World α) (call : Call α) : Option Closing :=
  if w.knows call then
    match call with
    | .write o _ => w.current.bind (w.closingOnWrite? · o)
    | .writeIn f o _ => w.closingOnWrite? f o
    | _ => none
  else none

/-- No observer closes a frame that writes, all through the run. -/
def Undisturbed (w : World α) (calls : List (Call α)) : Prop :=
  ∀ before call rest, calls = before ++ call :: rest → (w.after before).closing? call = none

/-- The empty run is undisturbed. -/
theorem undisturbed_nil : w.Undisturbed [] := by
  intro before call rest hsplit
  simp at hsplit

/-- A run is undisturbed if its first call is, and then the others. -/
theorem undisturbed_cons {call : Call α} {rest : List (Call α)} :
    w.Undisturbed (call :: rest) ↔ w.closing? call = none ∧ (w.step call).Undisturbed rest := by
  constructor
  · intro h
    exact ⟨h [] call rest rfl, fun before other tail hsplit =>
      h (call :: before) other tail (by rw [hsplit]; rfl)⟩
  · rintro ⟨hfirst, hrest⟩ before other tail hsplit
    cases before with
    | nil =>
      obtain ⟨rfl, -⟩ := List.cons.inj hsplit
      exact hfirst
    | cons first before =>
      obtain ⟨rfl, htail⟩ := List.cons.inj hsplit
      exact hrest before other tail htail

/-- Two runs in a row are undisturbed if the first is, and then the second. -/
theorem undisturbed_append {calls more : List (Call α)} :
    w.Undisturbed (calls ++ more) ↔ w.Undisturbed calls ∧ (w.after calls).Undisturbed more := by
  induction calls generalizing w with
  | nil => exact ⟨fun h => ⟨undisturbed_nil, h⟩, fun h => h.2⟩
  | cons call rest ih => rw [List.cons_append, undisturbed_cons, undisturbed_cons, ih, and_assoc,
      after_cons]

/-! ## Effects of writes -/

/-- A write succeeds when its record is found. -/
theorem writing_fst (w : World α) (f : FrameId) (o : ObjectId) (change : α → α) :
    (w.writing (writableIn f o) o change).1 = (w.prepareWrite f o).1 := by
  rw [writing, writableIn_run]
  cases hprepare : w.prepareWrite f o with
  | mk result v => cases result <;> rfl

/-- What an observer does writes no record. -/
theorem writes?_of_mem_observerEffects {f : FrameId} {o : ObjectId} {effect : Effect α}
    (h : effect ∈ w.observerEffects f o) : effect.writes? = none := by
  unfold observerEffects at h
  split at h
  · split at h
    · cases h
    · exact (of_mem_commitEffects h).1
    · rw [List.mem_singleton.mp h]
      rfl
  · cases h

/-- A write of a frame to an object writes for no other frame and no other object. -/
theorem of_mem_writeEffects {f : FrameId} {o p : ObjectId} {change : α → α} {effect : Effect α}
    {g : Generation} (h : effect ∈ w.writeEffects f o change)
    (hwrites : effect.writes? = some (p, g)) :
    p = o ∧ g = (w.frame f).generation ∧ ∃ r, (w.prepareWrite f o).1 = .ok r := by
  unfold writeEffects at h
  split at h
  · cases h
  · next r v hprepare =>
    have hgen := generation_of_prepareWrite hprepare
    refine (?_ : p = o ∧ g = r.generation) |>.imp id fun hg => ⟨hg.trans hgen, r, by rw [hprepare]⟩
    rw [List.mem_append, List.mem_append] at h
    rcases h with h | h | h
    · unfold linkEffects at h
      split at h
      · cases h
      · rw [List.mem_singleton.mp h] at hwrites
        obtain ⟨rfl, rfl⟩ := Prod.mk.inj (Option.some.inj hwrites)
        exact ⟨rfl, rfl⟩
    · split at h
      · cases h
      · rw [writes?_of_mem_observerEffects h] at hwrites
        cases hwrites
    · rw [List.mem_singleton.mp h] at hwrites
      obtain ⟨rfl, rfl⟩ := Prod.mk.inj (Option.some.inj hwrites)
      exact ⟨rfl, rfl⟩

/-- The call writes an object in a frame. -/
inductive WritesIn (w : World α) (f : FrameId) (o : ObjectId) (change : α → α) : Call α → Prop
  | current (h : w.current = some f) : w.WritesIn f o change (.write o change)
  | named : w.WritesIn f o change (.writeIn f o change)

namespace WritesIn

variable {f : FrameId} {o : ObjectId} {change : α → α} {call : Call α}

/-- A call that writes in a frame has that frame as its writer. -/
theorem writer?_eq (h : w.WritesIn f o change call) : w.writer? call = some (f, o) := by
  cases h with
  | current h => rw [writer?, h, Option.map_some]
  | named => rfl

/-- A call that writes in a frame is answered by the record that was found or branched. -/
theorem act_fst (h : w.WritesIn f o change call) :
    (w.act call).1 = .record (w.prepareWrite f o).1 := by
  rw [← writing_fst w f o change]
  cases h with
  | current h =>
    rw [← writing_writable h]
    rfl
  | named => rfl

end WritesIn

/-- Where an effect of a call comes from. -/
inductive Origin (w : World α) : Call α → Effect α → Prop
  | opening (options : FrameOptions) : w.Origin (.openFrame options) .opened
  | committing {f : FrameId} {effect : Effect α} (hactive : (w.frame f).isActive = true)
      (h : effect ∈ w.commitEffects f) : w.Origin (.commit f) effect
  | discarding (call : Call α) (g : Generation) : w.Origin call (.discarded g)
  | making (typeName : String) (merge : α → α → α → Option α) (initial : α) :
      w.Origin (.construct typeName merge initial) (w.makingEffect initial)
  | writing {call : Call α} {f : FrameId} {o : ObjectId} {change : α → α} {effect : Effect α}
      (hwrites : w.WritesIn f o change call) (h : effect ∈ w.writeEffects f o change) :
      w.Origin call effect
  | collecting (o : ObjectId) : w.Origin (.collect o) (.trimmed o)

/-- All that discarding a frame does is to discard its generation. -/
theorem eq_discarded_of_mem_discardEffects {f : FrameId} {effect : Effect α}
    (h : effect ∈ w.discardEffects f) : effect = .discarded (w.frame f).generation := by
  unfold discardEffects at h
  split at h
  · exact List.mem_singleton.mp h
  · cases h

/-- All that letting go of a frame does is to discard a generation. -/
theorem eq_discarded_of_mem_releaseEffects {f : FrameId} {effect : Effect α}
    (h : effect ∈ w.releaseEffects f) : ∃ g, effect = .discarded g := by
  unfold releaseEffects at h
  split at h
  · exact ⟨_, eq_discarded_of_mem_discardEffects h⟩
  · cases h

/-- Every effect of a call has its origin, and the call names only what exists. -/
theorem origin_of_mem_effects {call : Call α} {effect : Effect α}
    (h : effect ∈ w.effects call) : w.knows call = true ∧ w.Origin call effect := by
  unfold effects at h
  split at h
  swap
  · cases h
  next hknown =>
  refine ⟨hknown, ?_⟩
  cases call with
  | openFrame options =>
    dsimp only [actEffects] at h
    split at h
    · cases h
    · rw [List.mem_singleton.mp h]
      exact .opening options
  | commit f =>
    dsimp only [actEffects] at h
    split at h
    · next hactive => exact .committing hactive h
    · cases h
  | discard f =>
    rw [eq_discarded_of_mem_discardEffects h]
    exact .discarding _ _
  | drop f =>
    obtain ⟨g, rfl⟩ := eq_discarded_of_mem_releaseEffects h
    exact .discarding _ g
  | leave first =>
    obtain ⟨g, rfl⟩ := eq_discarded_of_mem_releaseEffects h
    exact .discarding _ g
  | construct typeName merge initial =>
    rw [List.mem_singleton.mp h]
    exact .making typeName merge initial
  | write o change =>
    dsimp only [actEffects] at h
    cases hcurrent : w.current with
    | none =>
      rw [hcurrent] at h
      cases h
    | some f =>
      rw [hcurrent] at h
      exact .writing (.current hcurrent) h
  | writeIn f o change => exact .writing .named h
  | collect o =>
    rw [List.mem_singleton.mp h]
    exact .collecting o
  | _ => cases h

/-- Only a call that writes an object in a frame has an effect that writes it for the frame. -/
theorem exists_writes_of_mem_effects {call : Call α} {effect : Effect α} {o : ObjectId}
    {g : Generation} (h : effect ∈ w.effects call) (hwrites : effect.writes? = some (o, g)) :
    ∃ f, (w.frame f).generation = g ∧ w.Writes call f o := by
  obtain ⟨hknown, horigin⟩ := origin_of_mem_effects h
  cases horigin with
  | opening | discarding | collecting => cases hwrites
  | committing _ h =>
    rw [(of_mem_commitEffects h).1] at hwrites
    cases hwrites
  | making typeName merge initial =>
    rw [makingEffect] at hwrites
    cases hmaking : w.makingFrame? 0 with
    | none =>
      rw [hmaking] at hwrites
      cases hwrites
    | some f =>
      rw [hmaking] at hwrites
      obtain ⟨rfl, rfl⟩ := Prod.mk.inj (Option.some.inj hwrites)
      refine ⟨f, rfl, by rw [writer?, hmaking]; rfl, ?_⟩
      rw [perform, if_pos hknown]
      rfl
  | writing hwriting h =>
    obtain ⟨rfl, rfl, r, hr⟩ := of_mem_writeEffects h hwrites
    refine ⟨_, rfl, hwriting.writer?_eq, ?_⟩
    rw [perform, if_pos hknown, hwriting.act_fst, hr]
    rfl

/-- After a call that writes an object in a frame, the frame had a record of the object or a record
was linked for it. -/
theorem links_of_writes {call : Call α} {f : FrameId} {o : ObjectId}
    (h : w.Writes call f o) :
    ((w.ledger.chain o).find? (w.frame f).generation).isSome = true ∨
      ∃ effect ∈ w.effects call, effect.links? = some (o, (w.frame f).generation) := by
  obtain ⟨hwriter, hrecord⟩ := h
  rw [perform] at hrecord
  split at hrecord
  swap
  · cases hrecord
  next hknown =>
  have hwriting (change : α → α)
      (hok : (Answer.record (w.writing (writableIn f o) o change).1).hasRecord = true)
      (heffects : w.effects call = w.writeEffects f o change) :
      ((w.ledger.chain o).find? (w.frame f).generation).isSome = true ∨
        ∃ effect ∈ w.effects call, effect.links? = some (o, (w.frame f).generation) := by
    rw [writing_fst] at hok
    rw [heffects, writeEffects]
    cases hprepare : w.prepareWrite f o with
    | mk result v =>
    cases result with
    | error violation =>
      rw [hprepare] at hok
      cases hok
    | ok r =>
      have hgen := generation_of_prepareWrite hprepare
      rcases of_prepareWrite hprepare with ⟨-, ⟨hfind, -⟩ | ⟨hfind, -⟩⟩
      · have hfind : (w.ledger.chain o).find? (w.frame f).generation = some r := hfind
        exact Or.inl (by rw [hfind]; rfl)
      · refine Or.inr ⟨.branched o r, ?_, by rw [← hgen]; rfl⟩
        simp [linkEffects, hfind]
  cases call with
  | construct typeName merge initial =>
    cases hmaking : w.makingFrame? 0 with
    | none => simp [writer?, hmaking] at hwriter
    | some g =>
      rw [writer?, hmaking] at hwriter
      obtain ⟨rfl, rfl⟩ := Prod.mk.inj (Option.some.inj hwriter)
      refine Or.inr ⟨w.makingEffect initial, ?_, by rw [makingEffect, hmaking]; rfl⟩
      rw [effects, if_pos hknown]
      exact List.mem_singleton_self _
  | write p change =>
    cases hcurrent : w.current with
    | none => simp [writer?, hcurrent] at hwriter
    | some g =>
      rw [writer?, hcurrent] at hwriter
      obtain ⟨rfl, rfl⟩ := Prod.mk.inj (Option.some.inj hwriter)
      refine hwriting change ?_ ?_
      · rw [← writing_writable hcurrent]
        exact hrecord
      · rw [effects, if_pos hknown]
        simp only [actEffects, hcurrent]
  | writeIn g p change =>
    obtain ⟨rfl, rfl⟩ := Prod.mk.inj (Option.some.inj hwriter)
    refine hwriting change hrecord ?_
    rw [effects, if_pos hknown]
    rfl
  | _ => cases hwriter

/-- An observer that closes nothing has no effect. -/
theorem observerEffects_eq_nil {f : FrameId} {o : ObjectId} {r : Record α} {v : World α}
    (hprepare : w.prepareWrite f o = (.ok r, v)) (hclosing : w.closingOnWrite? f o = none) :
    (if (w.frame f).written.contains o then [] else v.observerEffects f o) = [] := by
  have hoptions := frame_prepareWrite Frame.options (fun _ _ => rfl) (fun _ _ => rfl) hprepare f
  rw [closingOnWrite?, hprepare] at hclosing
  dsimp only at hclosing
  rw [observerEffects, hoptions]
  cases hwritten : (w.frame f).written.contains o with
  | true => rfl
  | false =>
    cases hobserved : (w.frame f).options.observed with
    | false => rfl
    | true =>
      have honce : (w.frame f).options.closing? = none := by
        simpa only [hwritten, hobserved, Bool.not_true, Bool.or_self, Bool.false_eq_true,
          if_false] using hclosing
      simp only [honce, Bool.false_eq_true, if_false, if_true]

/-- A write that nobody interrupts links a record, if need be, and stores into it. -/
theorem writeEffects_undisturbed {f : FrameId} {o : ObjectId} (change : α → α)
    (hclosing : w.closingOnWrite? f o = none) :
    w.writeEffects f o change =
      match w.prepareWrite f o with
      | (.error _, _) => []
      | (.ok r, _) => w.linkEffects f o r ++ [.stored o r.generation change] := by
  rw [writeEffects]
  cases hprepare : w.prepareWrite f o with
  | mk result v =>
  cases result with
  | error violation => rfl
  | ok r =>
    dsimp only
    rw [observerEffects_eq_nil hprepare hclosing, List.nil_append]

/-! ## Commits -/

/-- The commit that an observer attempts when a frame writes an object: the world in which it does
so, and the frame. -/
def commitsOnWrite (w : World α) (f : FrameId) (o : ObjectId) : List (World α × FrameId) :=
  if w.closingOnWrite? f o = some .commit then [((w.prepareWrite f o).2.tellWrite f o, f)] else []

/-- The commit of an open frame that a call attempts, with the world in which it does so. -/
def commitsIn (w : World α) (call : Call α) : List (World α × FrameId) :=
  if w.knows call then
    match call with
    | .commit f => if (w.frame f).isActive then [(w, f)] else []
    | .write o _ =>
      match w.current with
      | some f => w.commitsOnWrite f o
      | none => []
    | .writeIn f o _ => w.commitsOnWrite f o
    | _ => []
  else []

/-- The result of an attempted commit. -/
def outcome (attempt : World α × FrameId) : Except Refusal CommitEvent :=
  (attempt.1.commitActive attempt.2).1

/-- The commits of open frames that a run attempts, in order. -/
def commits (w : World α) : List (Call α) → List (World α × FrameId)
  | [] => []
  | call :: rest => w.commitsIn call ++ (w.step call).commits rest

/-- The commits that two runs in a row attempt are those of the first and then those of the second.
-/
theorem commits_append (w : World α) (calls more : List (Call α)) :
    w.commits (calls ++ more) = w.commits calls ++ (w.after calls).commits more := by
  induction calls generalizing w with
  | nil => rfl
  | cons call rest ih => rw [List.cons_append, commits, commits, ih, List.append_assoc, after_cons]

/-- A world in which a call attempts a commit: the effects of the call are what led there, the
commit, and what follows it. -/
structure Attempts (w : World α) (call : Call α) (v : World α) (f : FrameId) : Prop where
  made : f < v.frames.length
  active : (v.frame f).isActive = true
  parts : ∃ before after, w.effects call = before ++ (v.commitEffects f ++ after) ∧
    Follows v w before ∧ (∀ effect ∈ before, ∃ o r, effect = .branched o r) ∧
    ∀ effect ∈ after, ∃ o g change, effect = .stored o g change

/-- What the observer of a frame that writes does is what it chose. -/
theorem of_closingOnWrite? {f : FrameId} {o : ObjectId} {closing : Closing}
    (h : w.closingOnWrite? f o = some closing) :
    ∃ r v, w.prepareWrite f o = (.ok r, v) ∧ (w.frame f).written.contains o = false ∧
      (v.frame f).options.observed = true ∧
      (v.frame f).options.closing? = some closing := by
  unfold closingOnWrite? at h
  split at h
  · cases h
  · next r v hprepare =>
    have hoptions := frame_prepareWrite Frame.options (fun _ _ => rfl) (fun _ _ => rfl) hprepare f
    split at h
    · cases h
    · next hsecond =>
      simp only [Bool.or_eq_true, Bool.not_eq_true', not_or, Bool.not_eq_true,
        Bool.not_eq_false] at hsecond
      exact ⟨r, v, hprepare, hsecond.1, hoptions ▸ hsecond.2, hoptions ▸ h⟩

/-- An effect of a write is a commit only when the observer commits the frame. -/
theorem closingOnWrite?_of_committed {f : FrameId} {o : ObjectId} {change : α → α}
    {g : Generation} {merges : List (PendingMerge α)}
    (h : .committed g merges ∈ w.writeEffects f o change) :
    w.closingOnWrite? f o = some .commit := by
  unfold writeEffects at h
  split at h
  · cases h
  · next r v hprepare =>
    have hoptions := frame_prepareWrite Frame.options (fun _ _ => rfl) (fun _ _ => rfl) hprepare f
    rw [List.mem_append, List.mem_append] at h
    rcases h with h | h | h
    · unfold linkEffects at h
      split at h
      · cases h
      · cases List.mem_singleton.mp h
    · rw [closingOnWrite?, hprepare]
      unfold observerEffects at h
      rw [hoptions] at h
      split at h
      · cases h
      · next hwritten =>
        rw [Bool.not_eq_true] at hwritten
        split at h
        · next hobserved =>
          simp only [hwritten, hobserved, Bool.not_true, Bool.or_self, Bool.false_eq_true,
            if_false]
          split at h
          · cases h
          · assumption
          · cases List.mem_singleton.mp h
        · cases h
    · cases List.mem_singleton.mp h

/-- The commit that an observer attempts comes after the record was linked and before the value is
stored. -/
theorem writeEffects_committing (hw : w.Tidy) {f : FrameId} (hf : f < w.frames.length)
    {o : ObjectId} (ho : o < w.objects.length) (change : α → α)
    (h : w.closingOnWrite? f o = some .commit) :
    let v := (w.prepareWrite f o).2.tellWrite f o
    f < v.frames.length ∧ (v.frame f).isActive = true ∧
      ∃ before after, w.writeEffects f o change = before ++ (v.commitEffects f ++ after) ∧
        Follows v w before ∧ (∀ effect ∈ before, ∃ o r, effect = .branched o r) ∧
        ∀ effect ∈ after, ∃ o g change, effect = .stored o g change := by
  obtain ⟨r, v, hprepare, hwritten, hobserved, honce⟩ := of_closingOnWrite? h
  rw [hprepare]
  dsimp only
  have hlinked := follows_prepareWrite hw hf ho hprepare
  have hf' : f < v.frames.length := (length_frames_prepareWrite hprepare).symm ▸ hf
  have hactive : (v.frame f).isActive = true :=
    (frame_prepareWrite Frame.isActive (fun _ _ => rfl) (fun _ _ => rfl) hprepare f).trans
      (of_prepareWrite hprepare).1
  have htold := hlinked.trans (follows_tellWrite hlinked.tidy f o)
  rw [List.append_nil] at htold
  refine ⟨by rwa [tellWrite, length_frames_modifyFrame], ?_, w.linkEffects f o r,
    [.stored o r.generation change], ?_, htold, ?_, ?_⟩
  · rw [frame_tellWrite hf']
    exact hactive
  · rw [writeEffects, hprepare]
    dsimp only
    rw [hwritten, observerEffects, hobserved, honce]
    rfl
  · intro effect heffect
    unfold linkEffects at heffect
    split at heffect
    · cases heffect
    · exact ⟨o, r, List.mem_singleton.mp heffect⟩
  · intro effect heffect
    exact ⟨o, r.generation, change, List.mem_singleton.mp heffect⟩

/-- A commit among the effects of a call is one that the call attempts. -/
theorem commitsIn_ne_nil {call : Call α} {g : Generation} {merges : List (PendingMerge α)}
    (h : .committed g merges ∈ w.effects call) : w.commitsIn call ≠ [] := by
  obtain ⟨hknown, horigin⟩ := origin_of_mem_effects h
  unfold commitsIn
  rw [if_pos hknown]
  generalize heffect : Effect.committed g merges = effect at horigin
  cases horigin with
  | opening | discarding | collecting => cases heffect
  | committing hactive _ =>
    dsimp only
    rw [if_pos hactive]
    exact List.cons_ne_nil _ _
  | making typeName merge initial =>
    rw [makingEffect] at heffect
    split at heffect <;> cases heffect
  | writing hwriting hmem =>
    subst heffect
    have hclosing := closingOnWrite?_of_committed hmem
    cases hwriting with
    | current hcurrent =>
      dsimp only
      rw [hcurrent]
      dsimp only
      rw [commitsOnWrite, if_pos hclosing]
      exact List.cons_ne_nil _ _
    | named =>
      dsimp only
      rw [commitsOnWrite, if_pos hclosing]
      exact List.cons_ne_nil _ _

/-- A commit that a call attempts is by an open frame, and is what the call does. -/
theorem attempts_of_mem_commitsIn (hw : w.Tidy) {call : Call α} {v : World α} {f : FrameId}
    (h : (v, f) ∈ w.commitsIn call) : w.commitsIn call = [(v, f)] ∧ w.Attempts call v f := by
  have hwriting {g : FrameId} (hg : g < w.frames.length) {o : ObjectId}
      (ho : o < w.objects.length) {change : α → α} (h : (v, f) ∈ w.commitsOnWrite g o)
      (heffects : w.effects call = w.writeEffects g o change) :
      w.commitsOnWrite g o = [(v, f)] ∧ w.Attempts call v f := by
    unfold commitsOnWrite at h ⊢
    split at h
    · next hclosing =>
      obtain ⟨rfl, rfl⟩ := Prod.mk.inj (List.mem_singleton.mp h)
      obtain ⟨hmade, hactive, hparts⟩ := writeEffects_committing hw hg ho change hclosing
      exact ⟨if_pos hclosing, hmade, hactive, heffects ▸ hparts⟩
    · cases h
  unfold commitsIn at h ⊢
  split at h
  swap
  · cases h
  next hknown =>
  have heffects : w.effects call = w.actEffects call := if_pos hknown
  rw [if_pos hknown]
  cases call with
  | commit g =>
    dsimp only at h ⊢
    split at h
    · next hactive =>
      obtain ⟨rfl, rfl⟩ := Prod.mk.inj (List.mem_singleton.mp h)
      refine ⟨if_pos hactive, hasFrame_iff.mp hknown, hactive, [], [], ?_, .refl hw, nofun, nofun⟩
      rw [heffects, List.append_nil, List.nil_append]
      exact if_pos hactive
    · cases h
  | write o change =>
    dsimp only [actEffects] at h heffects ⊢
    cases hcurrent : w.current with
    | none =>
      rw [hcurrent] at h
      cases h
    | some g =>
      rw [hcurrent] at h heffects
      exact hwriting (hw.current g hcurrent) (hasObject_iff.mp hknown) h heffects
  | writeIn g o change =>
    obtain ⟨hg, ho⟩ := Bool.and_eq_true_iff.mp hknown
    exact hwriting (hasFrame_iff.mp hg) (hasObject_iff.mp ho) h heffects
  | _ => cases h

/-- A commit that a call attempts is asked for, or is the observer's when the frame writes. -/
theorem of_mem_commitsIn {call : Call α} {v : World α} {f : FrameId}
    (h : (v, f) ∈ w.commitsIn call) :
    w.knows call = true ∧ ((call = .commit f ∧ v = w ∧ (w.frame f).isActive = true) ∨
      ∃ o change, w.WritesIn f o change call ∧ w.closingOnWrite? f o = some .commit ∧
        v = (w.prepareWrite f o).2.tellWrite f o) := by
  have hwriting {g : FrameId} {o : ObjectId} {change : α → α}
      (hwrites : w.WritesIn g o change call) (h : (v, f) ∈ w.commitsOnWrite g o) :
      ∃ o change, w.WritesIn f o change call ∧ w.closingOnWrite? f o = some .commit ∧
        v = (w.prepareWrite f o).2.tellWrite f o := by
    unfold commitsOnWrite at h
    split at h
    · next hclosing =>
      obtain ⟨rfl, rfl⟩ := Prod.mk.inj (List.mem_singleton.mp h)
      exact ⟨o, change, hwrites, hclosing, rfl⟩
    · cases h
  unfold commitsIn at h
  split at h
  swap
  · cases h
  next hknown =>
  refine ⟨hknown, ?_⟩
  cases call with
  | commit g =>
    dsimp only at h
    split at h
    · next hactive =>
      obtain ⟨rfl, rfl⟩ := Prod.mk.inj (List.mem_singleton.mp h)
      exact Or.inl ⟨rfl, rfl, hactive⟩
    · cases h
  | write o change =>
    dsimp only at h
    cases hcurrent : w.current with
    | none =>
      rw [hcurrent] at h
      cases h
    | some g =>
      rw [hcurrent] at h
      exact Or.inr (hwriting (.current hcurrent) h)
  | writeIn g o change => exact Or.inr (hwriting .named h)
  | _ => cases h

/-- A call that commits an open frame attempts the commit. -/
theorem commits_append_commit {calls : List (Call α)} {f : FrameId}
    (hf : (w.after calls).hasFrame f = true)
    (hactive : ((w.after calls).frame f).isActive = true) :
    w.commits (calls ++ [.commit f]) = w.commits calls ++ [(w.after calls, f)] := by
  have hknown : (w.after calls).knows (.commit f) = true := hf
  rw [commits_append]
  unfold commits commits commitsIn
  rw [if_pos hknown]
  dsimp only
  rw [if_pos hactive, List.append_nil]

/-- A commit comes after those that the calls before it attempt. -/
theorem exists_of_commits_eq (hw : w.Tidy) {calls : List (Call α)}
    {earlier later : List (World α × FrameId)} {attempt : World α × FrameId}
    (h : w.commits calls = earlier ++ attempt :: later) :
    ∃ before call after, calls = before ++ call :: after ∧ w.commits before = earlier ∧
      attempt ∈ (w.after before).commitsIn call := by
  induction calls generalizing w earlier with
  | nil => simp [commits] at h
  | cons call rest ih =>
    rw [commits] at h
    cases hcommits : w.commitsIn call with
    | nil =>
      rw [hcommits, List.nil_append] at h
      obtain ⟨before, other, after, rfl, hbefore, hmem⟩ := ih (hw.step call) h
      exact ⟨call :: before, other, after, rfl, by rw [commits, hcommits, hbefore]; rfl, hmem⟩
    | cons first more =>
      have hfirst : first ∈ w.commitsIn call := hcommits ▸ List.mem_cons_self
      obtain ⟨hsingle, -⟩ := attempts_of_mem_commitsIn hw hfirst
      rw [hsingle, List.singleton_append] at h
      cases earlier with
      | nil =>
        obtain ⟨rfl, -⟩ := List.cons.inj h
        exact ⟨[], call, rest, rfl, rfl, hfirst⟩
      | cons second earlier =>
        obtain ⟨rfl, htail⟩ := List.cons.inj h
        obtain ⟨before, other, after, rfl, hbefore, hmem⟩ := ih (hw.step call) htail
        exact ⟨call :: before, other, after, rfl, by rw [commits, hsingle, hbefore]; rfl, hmem⟩

/-- A commit that a run attempts is by a frame that is open in a tidy world. -/
theorem of_mem_commits (hw : w.Tidy) {calls : List (Call α)} {v : World α} {f : FrameId}
    (h : (v, f) ∈ w.commits calls) :
    v.Tidy ∧ f < v.frames.length ∧ (v.frame f).isActive = true := by
  induction calls generalizing w with
  | nil => cases h
  | cons call rest ih =>
    rcases List.mem_append.mp h with h | h
    · obtain ⟨-, hmade, hactive, before, after, -, hfollows, -⟩ := attempts_of_mem_commitsIn hw h
      exact ⟨hfollows.tidy, hmade, hactive⟩
    · exact ih (hw.step call) h

end World

end VersionedObjects.Store
