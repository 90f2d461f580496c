import VersionedObjects.Proofs.Store.Confinement

/-!
# Independent managers

A program may have several managers, each with its own clock, and call through any of them. Main
statement: a call through one manager leaves the frames and the objects of every other one alone,
and with them what their readers find, except that a manager trims any object it is given by its
own readers. Of such an object a reader goes on finding what it found exactly if that record is
retained for the readers of the manager that trims.
-/

namespace VersionedObjects.Store

variable {α : Type}

/-- Trimming leaves a reader what it selects, if the rule retains that record or none at all. -/
theorem Chain.Ascending.select?_trim_iff {c : Chain α} (hc : c.Ascending) (view : GcView)
    (reader : Visibility) :
    (c.trim view).select? reader = c.select? reader ↔
      ∀ r, c.select? reader = some r →
        view.retains c.entries (r.generation, r.base) = true ∨
          ∀ s ∈ c.records, view.retains c.entries (s.generation, s.base) = false := by
  have hrecords := Chain.records_trim hc.entries view
  dsimp only at hrecords
  constructor
  · intro hsame r hr
    rw [hr] at hsame
    have hmem : r ∈ (c.trim view).records :=
      ((hc.trim view).newest?_eq_some_iff.mp hsame).1
    rw [hrecords] at hmem
    split at hmem
    · next hnone =>
      right
      intro s hs
      rw [List.isEmpty_iff, List.filter_eq_nil_iff] at hnone
      simpa using hnone s hs
    · exact Or.inl (List.mem_filter.mp hmem).2
  · intro hkept
    refine hc.newest?_eq_of_subset (hc.trim view)
      (fun r hr _ => (hc.trim_sublist view).subset hr) fun r hr => ?_
    have hmem : r ∈ c.records := (hc.newest?_eq_some_iff.mp hr).1
    rcases hkept r hr with hretained | hnone
    · exact hc.mem_trim hmem hretained
    · have hempty : (c.records.filter fun s =>
          view.retains c.entries (s.generation, s.base)) = [] := by
        rw [List.filter_eq_nil_iff]
        intro s hs
        rw [hnone s hs]
        exact Bool.false_ne_true
      rw [hrecords, hempty]
      exact hmem

/-- What a program of several managers may ask: for one more manager, or a call, with the manager
that opens, makes or trims what the call asks for. -/
inductive Request (α : Type) where
  | addManager (config : Config)
  | call (m : ManagerId) (call : Call α)

namespace World

variable {w : World α}

/-! ## Calls through a manager -/

/-- The answer to a call that names only what exists, and the world after it, when the manager
opens, makes or trims what the call asks for. -/
def actBy (w : World α) (m : ManagerId) : Call α → Answer α × World α
  | .openFrame options => let (result, v) := w.openFrame m options; (.opened result, v)
  | .construct typeName merge initial =>
    let (o, v) := w.newObject m typeName merge initial; (.made o, v)
  | .collect o => let (dropped, v) := w.collect m o; (.collected dropped, v)
  | call => w.act call

/-- The answer to a call and the world after it. -/
def performBy (w : World α) (m : ManagerId) (call : Call α) : Answer α × World α :=
  if w.knows call && m < w.managers.length then w.actBy m call else (.unknown, w)

/-- The manager through which a call is made: that of the frame or the object that it names or, if
it names neither, of the current frame. -/
def through (w : World α) (m : ManagerId) : Call α → ManagerId
  | .openFrame _ | .construct .. | .collect _ => m
  | .commit f | .discard f | .hold f | .drop f | .enter f | .readIn f _ | .writeIn f _ _ =>
    (w.frame f).manager
  | .announce o => (w.object o).manager
  | .leave _ | .read _ | .hasVisibleRecord _ | .write _ _ =>
    (w.currentFrame?.map (·.manager)).getD m

/-- The world after a request. -/
def serve (w : World α) : Request α → World α
  | .addManager config => w.addManager config
  | .call m call => (w.performBy m call).2

/-- The world after requests in order. -/
def serveAll (w : World α) (requests : List (Request α)) : World α :=
  requests.foldl serve w

/-- A call is confined to the manager through which it is made, unless it trims an object of another
one. -/
theorem confined_actBy (hw : w.Orderly) {m : ManagerId} {call : Call α}
    (hknown : w.knows call = true)
    (hcollects : ∀ o, call = .collect o → (w.object o).manager = m) :
    (w.actBy m call).2.Confined w (w.through m call) := by
  have hcurrent {f : FrameId} (hf : w.current = some f) :
      (w.currentFrame?.map (·.manager)).getD m = (w.frame f).manager := by
    rw [currentFrame?, hf]
    rfl
  cases call with
  | openFrame options => exact confined_openFrame hw m options
  | commit f => exact confined_commit hw (hasFrame_iff.mp hknown)
  | discard f => exact confined_discard hw (hasFrame_iff.mp hknown)
  | hold f => exact confined_hold hw f
  | drop f => exact confined_release hw (hasFrame_iff.mp hknown)
  | enter f => exact confined_enterFrame hw (hasFrame_iff.mp hknown)
  | leave first =>
    obtain ⟨f, hf⟩ := Option.isSome_iff_exists.mp hknown
    dsimp only [actBy, act, through]
    rw [hcurrent hf, hf]
    exact confined_leaveFrame hw (hw.current f hf) first
  | construct typeName merge initial => exact confined_newObject hw m typeName merge initial
  | announce o => exact confined_notifyCreated hw o
  | read o => exact confined_readable hw _ o
  | readIn f o => exact confined_readableIn hw _ f o
  | hasVisibleRecord o => exact .refl hw _
  | write o change =>
    dsimp only [actBy, act, through]
    cases hwriter : w.current with
    | none =>
      rw [writing_writable_none hwriter]
      exact .refl hw _
    | some f =>
      rw [hcurrent hwriter, writing_writable hwriter]
      exact confined_writing hw (hw.current f hwriter) (hasObject_iff.mp hknown) change
  | writeIn f o change =>
    obtain ⟨hf, ho⟩ := Bool.and_eq_true_iff.mp hknown
    exact confined_writing hw (hasFrame_iff.mp hf) (hasObject_iff.mp ho) change
  | collect o => exact confined_collect hw (hcollects o rfl)

/-- A call is confined to the manager it goes through, if it collects nothing of another one. -/
theorem confined_performBy (hw : w.Orderly) {m : ManagerId} {call : Call α}
    (hcollects : ∀ o, call = .collect o → (w.object o).manager = m) :
    (w.performBy m call).2.Confined w (w.through m call) := by
  rw [performBy]
  split
  · next hknown => exact confined_actBy hw (Bool.and_eq_true_iff.mp hknown).1 hcollects
  · exact .refl hw _

/-! ## Trimming for a stranger -/

/-- A manager that trims an object changes nothing but the chain of the object and its own
counters. -/
theorem collect_spec (w : World α) (m : ManagerId) {o : ObjectId} (ho : o < w.objects.length) :
    (w.collect m o).2.frames = w.frames ∧
      (∀ k ≠ m, (w.collect m o).2.manager k = w.manager k) ∧
      ∀ p, (w.collect m o).2.object p =
        if p = o then { w.object p with chain := (w.object p).chain.trim (w.manager m).gcView }
        else w.object p := by
  have hobject (p : ObjectId) : (w.collect m o).2.object p =
      (w.modifyChain o (·.trim (w.manager m).gcView)).object p := rfl
  refine ⟨rfl, fun k hk => ?_, fun p => ?_⟩
  · rw [collect]
    exact manager_modifyManager_of_ne hk _ _
  · rw [hobject, modifyChain, object_modifyObject ho]

/-- A collect leaves the world orderly, whichever manager owns the object. -/
theorem orderly_collect (hw : w.Orderly) (m : ManagerId) {o : ObjectId}
    (ho : o < w.objects.length) : (w.collect m o).2.Orderly := by
  obtain ⟨-, -, hobject⟩ := w.collect_spec m ho
  have hlength : (w.collect m o).2.objects.length = w.objects.length :=
    length_objects_of_identities (congrArg Outline.identities (outline_collect w m o))
  refine ⟨hw.current, fun f hf p hp => ?_, fun p => ?_⟩
  · rw [hlength, hobject]
    split
    · exact hw.touched f hf p hp
    · exact hw.touched f hf p hp
  · rw [hobject]
    split
    · exact (hw.ascending p).trim _
    · exact hw.ascending p

/-- After a trim a reader finds what it found if the manager that trims retains this record, or
none at all. -/
theorem select?_collect_iff (hw : w.Orderly) (m : ManagerId) {o : ObjectId}
    (ho : o < w.objects.length) (reader : Visibility) :
    (w.collect m o).2.select? o reader = w.select? o reader ↔
      ∀ r, w.select? o reader = some r →
        let retained := fun s : Record α =>
          (w.manager m).gcView.retains (w.object o).chain.entries (s.generation, s.base)
        retained r = true ∨ ∀ s ∈ (w.object o).chain.records, retained s = false := by
  obtain ⟨-, -, hobject⟩ := w.collect_spec m ho
  rw [select?, hobject, if_pos rfl]
  exact (hw.ascending o).select?_trim_iff (w.manager m).gcView reader

/-- A manager that exists trims any object that exists. -/
theorem performBy_collect {m : ManagerId} {o : ObjectId} (ho : o < w.objects.length)
    (hm : m < w.managers.length) : (w.performBy m (.collect o)).2 = (w.collect m o).2 := by
  have hknown : (w.knows (.collect o) && m < w.managers.length) = true := by
    simp [knows, hasObject_iff, ho, hm]
  rw [performBy, if_pos hknown]
  rfl

/-- A collect of an object or through a manager that does not exist does nothing. -/
theorem performBy_collect_of_not {m : ManagerId} {o : ObjectId}
    (hnot : ¬ (o < w.objects.length ∧ m < w.managers.length)) :
    (w.performBy m (.collect o)).2 = w := by
  rw [performBy, if_neg]
  simpa [knows, hasObject_iff] using hnot

/-! ## Runs -/

/-- Every call leaves an orderly world orderly. -/
theorem orderly_performBy (hw : w.Orderly) (m : ManagerId) (call : Call α) :
    (w.performBy m call).2.Orderly := by
  by_cases hcollects : ∃ o, call = .collect o
  · obtain ⟨o, rfl⟩ := hcollects
    rw [performBy]
    split
    · next hknown =>
      exact orderly_collect hw m (hasObject_iff.mp (Bool.and_eq_true_iff.mp hknown).1)
    · exact hw
  · exact (confined_performBy hw fun o heq => absurd ⟨o, heq⟩ hcollects).orderly

/-- Every request leaves an orderly world orderly. -/
theorem orderly_serve (hw : w.Orderly) (request : Request α) : (w.serve request).Orderly := by
  cases request with
  | addManager config => exact ⟨hw.current, hw.touched, hw.ascending⟩
  | call m call => exact orderly_performBy hw m call

/-- The world in which nothing was done is orderly. -/
theorem orderly_empty : ({} : World α).Orderly :=
  ⟨nofun, nofun, fun _ => List.Pairwise.nil⟩

/-- Every world that requests lead to is orderly. -/
theorem orderly_serveAll (requests : List (Request α)) :
    (({} : World α).serveAll requests).Orderly := by
  suffices h : ∀ w : World α, w.Orderly → (w.serveAll requests).Orderly from h {} orderly_empty
  induction requests with
  | nil => exact fun w hw => hw
  | cons request rest ih => exact fun w hw => ih (w.serve request) (orderly_serve hw request)

/-- Readers of a manager find in an object what they found before, if neither was changed. -/
theorem selectCommitted?_congr {v : World α} {o : ObjectId} (hobject : v.object o = w.object o)
    (hmanager : v.manager (w.object o).manager = w.manager (w.object o).manager) :
    v.selectCommitted? o = w.selectCommitted? o := by
  rw [selectCommitted?, select?, hobject, hmanager, ← select?, ← selectCommitted?]

/-- **Independent managers.** Of any program of several managers, take a manager and a call that is
made through another one. The clock, the open table and the frames of the manager stay as they are.
So do its objects, and what its frames and readers outside of frames find in them, unless the call
trims one of these. Then only that chain changes, and a reader finds what it found before if and
only if the manager that trims retains this record for its own readers, or nothing at all. -/
theorem managers_independent (requests : List (Request α)) :
    let w := ({} : World α).serveAll requests
    ∀ m call, let v := (w.performBy m call).2
    ∀ k ≠ w.through m call,
      v.manager k = w.manager k ∧
      (∀ f < w.frames.length, (w.frame f).manager = k → v.frame f = w.frame f) ∧
      ((∀ o, call = .collect o → (w.object o).manager ≠ k) →
        ∀ o < w.objects.length, (w.object o).manager = k →
          v.object o = w.object o ∧ v.selectCommitted? o = w.selectCommitted? o ∧
          ∀ f < w.frames.length, (w.frame f).manager = k →
            v.select? o (v.frame f).view = w.select? o (w.frame f).view) ∧
      ∀ o < w.objects.length, call = .collect o → m < w.managers.length →
        (∀ p ≠ o, v.object p = w.object p) ∧
        ∀ reader, v.select? o reader = w.select? o reader ↔
          ∀ r, w.select? o reader = some r →
            let retained := fun s : Record α =>
              (w.manager m).gcView.retains (w.object o).chain.entries (s.generation, s.base)
            retained r = true ∨ ∀ s ∈ (w.object o).chain.records, retained s = false := by
  have hw := orderly_serveAll requests
  dsimp only
  generalize ({} : World α).serveAll requests = w at hw
  intro m call k hk
  by_cases hcollects : ∃ o, call = .collect o
  · obtain ⟨o, rfl⟩ := hcollects
    by_cases hdone : o < w.objects.length ∧ m < w.managers.length
    · obtain ⟨ho, hm⟩ := hdone
      obtain ⟨hframes, hmanagers, hobject⟩ := w.collect_spec m ho
      rw [performBy_collect ho hm]
      have hframe (f : FrameId) : (w.collect m o).2.frame f = w.frame f := by
        rw [frame, hframes, ← frame]
      have hother {p : ObjectId} (hp : p ≠ o) : (w.collect m o).2.object p = w.object p := by
        rw [hobject, if_neg hp]
      refine ⟨hmanagers k hk, fun f _ _ => hframe f, ?_, ?_⟩
      · intro hforeign p _ hpk
        have hsame : (w.collect m o).2.object p = w.object p := by
          apply hother
          rintro rfl
          exact hforeign p rfl hpk
        refine ⟨hsame, selectCommitted?_congr hsame (hpk ▸ hmanagers k hk), fun f _ _ => ?_⟩
        rw [hframe, select?, hsame, ← select?]
      · intro p hp heq _
        obtain rfl := Call.collect.inj heq
        exact ⟨fun q hq => hother hq, select?_collect_iff hw m ho⟩
    · rw [performBy_collect_of_not hdone]
      refine ⟨rfl, fun _ _ _ => rfl, fun _ _ _ _ => ⟨rfl, rfl, fun _ _ _ => rfl⟩, ?_⟩
      intro p hp heq hm
      exact absurd ⟨Call.collect.inj heq ▸ hp, hm⟩ hdone
  · have hconfined := confined_performBy (m := m) hw fun o heq => absurd ⟨o, heq⟩ hcollects
    have hframe {f : FrameId} (hf : f < w.frames.length) (hm : (w.frame f).manager = k) :
        (w.performBy m call).2.frame f = w.frame f :=
      (hconfined.frames f hf).2 (hm ▸ hk)
    refine ⟨hconfined.managers k hk, fun f hf => hframe hf, ?_, ?_⟩
    · intro _ o ho hm
      have hobject : (w.performBy m call).2.object o = w.object o :=
        (hconfined.objects o ho).2 (hm ▸ hk)
      have hmanager := hm ▸ hconfined.managers k hk
      refine ⟨hobject, selectCommitted?_congr hobject hmanager, fun f hf hfm => ?_⟩
      rw [hframe hf hfm, select?, hobject, ← select?]
    · intro o _ heq
      exact absurd ⟨o, heq⟩ hcollects

/-- A counter of the first manager is raised beside an older frame, and the second manager makes
counters until its clock has passed both generations. -/
def strangers : List (Request Nat) :=
  [.addManager { gc := .manual }, .call 0 (.construct "Counter" (fun _ _ _ => none) 0),
    .call 0 (.openFrame {}), .call 0 (.openFrame {}), .call 0 (.writeIn 1 0 fun _ => 5),
    .call 0 (.commit 1), .addManager { gc := .manual }] ++
  List.replicate 3 (.call 1 (.construct "Counter" (fun _ _ _ => none) 0))

/-- Trimming takes the record that an open frame sees, because the frame is no reader of the manager
that trims. -/
theorem record_lost_to_stranger :
    ¬ ∀ (requests : List (Request Nat)) (m : ManagerId) (call : Call Nat),
      let w := ({} : World Nat).serveAll requests
      let v := (w.performBy m call).2
      ∀ k ≠ w.through m call, ∀ o < w.objects.length, (w.object o).manager = k →
        ∀ f < w.frames.length, (w.frame f).manager = k → (w.frame f).isActive = true →
          v.select? o (v.frame f).view = w.select? o (w.frame f).view := by
  intro h
  have hsame := h strangers 1 (.collect 0) 0 (by decide) 0 (by decide +kernel) (by decide +kernel) 0
    (by decide +kernel) (by decide +kernel) (by decide +kernel)
  have hlost := congrArg (Option.map (·.value)) hsame
  exact absurd hlost (by decide +kernel)

/-- The second manager may trim its own counter, and then the frame of the first one goes on finding
0; when it trims the counter of the first manager, the frame finds something else, because the
second manager retains only the newest record. -/
theorem managers_independent_of_strangers :
    let w := ({} : World Nat).serveAll strangers
    let finds (v : World Nat) := v.select? 0 (v.frame 0).view
    finds (w.performBy 1 (.collect 1)).2 = finds w ∧ (finds w).map (·.value) = some 0 ∧
      (w.performBy 1 (.collect 0)).2.select? 0 (w.frame 0).view ≠ finds w := by
  intro w finds
  have hown := (managers_independent strangers 1 (.collect 1) 0 (by decide)).2.2.1
  obtain ⟨-, -, hfinds⟩ := hown (fun o ho => Call.collect.inj ho ▸ by decide +kernel) 0
    (by decide +kernel) (by decide +kernel)
  obtain ⟨-, -, -, htrims⟩ := managers_independent strangers 1 (.collect 0) 0 (by decide)
  obtain ⟨-, hreader⟩ := htrims 0 (by decide +kernel) rfl (by decide +kernel)
  refine ⟨hfinds 0 (by decide +kernel) (by decide +kernel), by decide +kernel, fun hsame => ?_⟩
  have hfound : w.select? 0 (w.frame 0).view = some ⟨1, none, 0, false⟩ := by decide +kernel
  have hretained := (hreader _).mp hsame _ hfound
  exact absurd hretained (by decide +kernel)

end World

end VersionedObjects.Store
