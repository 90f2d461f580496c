import VersionedObjects.Proofs.Dynamic.CarelessModules
import VersionedObjects.Proofs.Shell.FrameTable

/-!
# When a session breaks

Between lines the frames of the table are open and none is current, and the classes are those that
were loaded. From such a session a line leads to such a session. What it runs is safe inside the
active frame, and outside of frames for all but unguarded code. Main statement: `sustains_perform`.
-/

namespace VersionedObjects.Shell

open Declaration (Module)
open VersionedObjects.Dynamic (EvalM Keeps Kept LoadedClass LoadedFrom ProgramError Runtime Safe
  Slots anything bind_of_ok bind_of_error enter_apply keeps_get keeps_modify keeps_pure keeps_throw)
open Grammar (LoadError)
open Store (FrameId Generation ManagerId ObjectId OpenTable World)

/-- Between lines no frame is current, the frames of the table are open and there are no others, an
active frame is one of the table, and the classes are of some kind. -/
structure Session.Intact (P : LoadedClass → Prop) (s : Session) : Prop where
  tidy : s.runtime.world.Tidy
  outside : s.runtime.world.current = none
  opened : s.runtime.world.ledger.table.generations = s.frames.map (·.1)
  held : ∀ entry ∈ s.frames, s.runtime.world.Held entry.1 entry.2
  listed : ∀ g, s.active = some g → ∃ f, (g, f) ∈ s.frames
  classes : s.runtime.Only P

/-- If the problem is a failure of the runtime, calls nest too deep, or unguarded code has written a
record while no frame was active. -/
def Expected (p : Problem) (s : Session) : Prop :=
  ∀ failure, p = .broken failure → failure = .exhausted ∨ s.active = none ∧
    (∃ typeName o, failure = .violation (.noFrame typeName o)) ∧
      ∃ part ∈ s.runtime.instances, part.cls.Unguarded

/-- A session is intact after an operation, and broken only as expected. -/
abbrev Sustained {β : Type} (P : LoadedClass → Prop) : EStateM.Result Problem Session β → Prop :=
  Kept (Session.Intact P) Expected anything

/-- An operation leaves a session intact, and breaks it only as expected. -/
abbrev Sustains {β : Type} (P : LoadedClass → Prop) (x : SessionM β) : Prop :=
  Keeps (Session.Intact P) Expected anything x

variable {β : Type} {P : LoadedClass → Prop} {s : Session}

/-! ## The runtime of a session -/

/-- What a session says and how it names instances is of no account. -/
theorem Session.Intact.of_eq (hs : s.Intact P) {t : Session} (hruntime : t.runtime = s.runtime)
    (hframes : t.frames = s.frames) (hactive : t.active = s.active) : t.Intact P := by
  constructor <;> simp only [hruntime, hframes, hactive]
  exacts [hs.tidy, hs.outside, hs.opened, hs.held, hs.listed, hs.classes]

/-- A session is intact with another runtime in which the open frames are what they were and the
classes are of the kind. -/
theorem Session.Intact.of_rests (hs : s.Intact P) {r : Runtime}
    (hr : r.world.Rests s.runtime.world) (hclasses : r.Only P) :
    Session.Intact P { s with runtime := r } :=
  ⟨hr.tidy, hr.current, hr.table ▸ hs.opened,
    fun entry hentry => (hs.held entry hentry).of_rests hr, hs.listed, hclasses⟩

/-- A session is intact in another world in which the open frames are what they were. -/
theorem Session.Intact.of_world (hs : s.Intact P) {w : World Slots}
    (hw : w.Rests s.runtime.world) :
    Session.Intact P { s with runtime := { s.runtime with world := w } } :=
  hs.of_rests hw (hs.classes.of_world w)

/-- A change of the world always succeeds, and changes nothing else of the session. -/
theorem changeWorld_apply (f : World Slots → β × World Slots) (s : Session) :
    changeWorld f s = .ok (f s.runtime.world).1
      { s with runtime := { s.runtime with world := (f s.runtime.world).2 } } :=
  rfl

/-- A change of the runtime always succeeds, and changes nothing else of the session. -/
theorem changeRuntime_apply (f : Runtime → β × Runtime) (s : Session) :
    changeRuntime f s = .ok (f s.runtime).1 { s with runtime := (f s.runtime).2 } :=
  rfl

/-- A result that fails with a reported problem leaves the session alone. -/
theorem sustains_orProblem {ε : Type} {problem : ε → Problem}
    (h : ∀ e failure, problem e ≠ .broken failure) (x : Except ε β) :
    Keeps (Session.Intact P) Expected (fun b => x = .ok b) (orProblem problem x) := by
  cases x with
  | ok b => exact keeps_pure rfl
  | error e => exact keeps_throw fun _ failure hfailure => absurd hfailure (h e failure)

/-- A failure of the program that frames classes is reported. -/
theorem sustains_orProgram (x : Except ProgramError β) :
    Keeps (Session.Intact P) Expected (fun b => x = .ok b) (orProblem .program x) :=
  sustains_orProblem (fun _ _ h => by cases h) x

/-- A change of the world after which the open frames are what they were leaves a session intact. -/
theorem sustains_changeWorld {f : World Slots → β × World Slots}
    (h : ∀ w : World Slots, w.Tidy → w.current = none → (f w).2.Rests w) :
    Sustains P (changeWorld f) := by
  intro s hs
  rw [changeWorld_apply]
  exact ⟨hs.of_world (h _ hs.tidy hs.outside), trivial⟩

/-- A change of the classes and instances leaves a session intact, if the classes are of the kind.
-/
theorem sustains_changeRuntime {f : Runtime → β × Runtime}
    (hworld : ∀ r : Runtime, (f r).2.world = r.world)
    (hclasses : ∀ r : Runtime, r.Only P → (f r).2.Only P) : Sustains P (changeRuntime f) := by
  intro s hs
  rw [changeRuntime_apply]
  refine ⟨hs.of_rests ?_ (hclasses _ hs.classes), trivial⟩
  rw [hworld]
  exact .refl hs.tidy hs.outside

/-- Evaluation may come to errors that are reported, and to what is expected. -/
theorem sustained_evaluate {x : EvalM β} (hs : s.Intact P)
    (h : Kept (fun r => r.world.Rests s.runtime.world ∧ r.Only P)
      (fun e r => (∃ error, e = .eval error) ∨ Expected (.broken e) { s with runtime := r })
      anything (x s.runtime)) : Sustained P (evaluate x s) := by
  unfold evaluate
  cases hx : x s.runtime with
  | ok b r =>
    rw [hx] at h
    exact ⟨hs.of_rests h.1.1 h.1.2, trivial⟩
  | error e r =>
    rw [hx] at h
    cases e with
    | eval e => exact ⟨hs.of_rests h.1.1 h.1.2, nofun⟩
    | violation v => exact ⟨hs.of_rests h.1.1 h.1.2, h.2.resolve_left nofun⟩
    | exhausted => exact ⟨hs.of_rests h.1.1 h.1.2, h.2.resolve_left nofun⟩

/-- Something is evaluated in the active frame, or outside of frames where none is active. -/
theorem inActiveFrame_apply (action : EvalM β) (s : Session) : inActiveFrame action s =
    match s.active.bind fun g => s.frames.lookup g with
    | some f => evaluate (Store.enter Slots f action) s
    | none => evaluate action s := by
  have hget : (get : SessionM Session) s = .ok s s := rfl
  unfold inActiveFrame
  rw [bind_of_ok hget]
  cases s.active.bind fun g => s.frames.lookup g <;> rfl

/-- What is looked up stands in the table. -/
theorem mem_of_lookup {entries : List (Generation × FrameId)} {g : Generation} {f : FrameId}
    (h : entries.lookup g = some f) : (g, f) ∈ entries := by
  obtain ⟨before, after, hsplit, -⟩ := List.lookup_eq_some_iff.mp h
  rw [hsplit]
  exact List.mem_append_right _ List.mem_cons_self

/-- Outside of frames only unguarded code fails. -/
theorem sustained_evaluate_outside {action : EvalM β} (h : Safe action) (hs : s.Intact P)
    (hnone : s.active = none) : Sustained P (evaluate action s) := by
  have hwork : s.runtime.world.AtWork := ⟨hs.tidy, by simp [hs.outside], by simp [hs.outside]⟩
  refine sustained_evaluate hs ((h s.runtime hwork).mono
    (fun r hr => ⟨hr.world.rests hs.outside, hs.classes.of_continues hr⟩)
    (fun e r _ he => ?_) fun _ => id)
  cases he with
  | eval e => exact .inl ⟨e, rfl⟩
  | exhausted => exact .inr fun _ hfailure => .inl (Problem.broken.inj hfailure).symm
  | noFrame hplace hpart hcode typeName o =>
    refine .inr fun failure hfailure => .inr ⟨hnone, ⟨typeName, o, ?_⟩, _, hpart, hcode⟩
    exact (Problem.broken.inj hfailure).symm

/-- Inside a held frame nothing fails, as the frame stays the current one. -/
theorem sustained_evaluate_enter {action : EvalM β} (h : Safe action) (hs : s.Intact P)
    {g : Generation} {f : FrameId} (hheld : s.runtime.world.Held g f) :
    Sustained P (evaluate (Store.enter Slots f action) s) := by
  have hstepped := hs.classes.of_world (s.runtime.world.stepIn f)
  have houtcome := h { s.runtime with world := s.runtime.world.stepIn f } (hheld.atWork hs.tidy)
  refine sustained_evaluate hs ?_
  rw [enter_apply f action hs.outside]
  cases hx : action { s.runtime with world := s.runtime.world.stepIn f } with
  | ok b r =>
    rw [hx] at houtcome
    exact ⟨⟨hheld.rests houtcome.1.world, (hstepped.of_continues houtcome.1).of_world _⟩, trivial⟩
  | error e r =>
    rw [hx] at houtcome
    refine ⟨⟨hheld.rests houtcome.1.world, (hstepped.of_continues houtcome.1).of_world _⟩, ?_⟩
    cases houtcome.2 with
    | eval e => exact .inl ⟨e, rfl⟩
    | exhausted => exact .inr fun _ hfailure => .inl (Problem.broken.inj hfailure).symm
    | noFrame hplace =>
      have hcurrent : r.world.current = some f := houtcome.1.world.current
      rw [hcurrent] at hplace
      cases hplace

/-- What is safe to run is safe to run in the active frame. -/
theorem sustains_inActiveFrame {action : EvalM β} (h : Safe action) :
    Sustains P (inActiveFrame action) := by
  intro s hs
  rw [inActiveFrame_apply]
  cases hactive : s.active.bind fun g => s.frames.lookup g with
  | none =>
    refine sustained_evaluate_outside h hs ?_
    cases hg : s.active with
    | none => rfl
    | some g =>
      obtain ⟨f, hf⟩ := hs.listed g hg
      rw [hg, Option.bind_some, List.lookup_eq_none_iff] at hactive
      exact absurd (beq_self_eq_true g) (by simpa using hactive (g, f) hf)
  | some f =>
    obtain ⟨g, -, hlookup⟩ := Option.bind_eq_some_iff.mp hactive
    exact sustained_evaluate_enter h hs (hs.held (g, f) (mem_of_lookup hlookup))

/-! ## Frames -/

/-- A new frame comes last in the table. -/
theorem Session.Intact.with (hs : s.Intact P) {w : World Slots} {f : FrameId} (hw : w.Tidy)
    (hcurrent : w.current = s.runtime.world.current) {g : Generation}
    (htable : w.ledger.table.generations = s.runtime.world.ledger.table.generations ++ [g])
    (hheld : w.Held g f) (hkept : ∀ h k, s.runtime.world.Held h k → w.Held h k) :
    Session.Intact P { s with runtime := { s.runtime with world := w }
                              frames := s.frames ++ [(g, f)]
                              active := some g } where
  tidy := hw
  outside := hcurrent.trans hs.outside
  opened := by
    dsimp only
    rw [htable, hs.opened, List.map_append, List.map_singleton]
  held entry hentry := by
    rcases List.mem_append.mp hentry with hold | hnew
    · exact hkept _ _ (hs.held entry hold)
    · rw [List.mem_singleton.mp hnew]
      exact hheld
  listed k hk := by
    cases hk
    exact ⟨f, List.mem_append_right _ (List.mem_singleton_self _)⟩
  classes := hs.classes.of_world w

/-- To open a frame is refused, or it adds a frame to the table, which becomes the active one. -/
theorem openFrame_apply (hs : s.Intact P) :
    (∃ refusal, openFrame s = .error (.refusal refusal) s) ∨
      ∃ text w g f, openFrame s = .ok text { s with runtime := { s.runtime with world := w }
                                                    frames := s.frames ++ [(g, f)]
                                                    active := some g } ∧
        w.Tidy ∧ w.current = s.runtime.world.current ∧
        w.ledger.table.generations = s.runtime.world.ledger.table.generations ++ [g] ∧
        w.Held g f ∧ ∀ h k, s.runtime.world.Held h k → w.Held h k := by
  unfold openFrame
  rw [bind_of_ok (changeWorld_apply _ s)]
  rcases World.openFrame_cases hs.tidy with
    ⟨refusal, hopen⟩ | ⟨w, hopen, htidy, hcurrent, htable, hheld, hkept⟩
  · rw [show s.runtime.world.openFrame manager {} = _ from hopen]
    exact .inl ⟨refusal, rfl⟩
  · rw [show s.runtime.world.openFrame manager {} = _ from hopen]
    refine .inr ⟨_, w, _, _, by rw [← hheld.generation]; rfl, htidy, hcurrent, htable, hheld,
      hkept⟩

/-- To open a frame adds it to the table and makes it active. -/
theorem sustains_openFrame : Sustains P openFrame := by
  intro s hs
  rcases openFrame_apply hs with
    ⟨refusal, hopen⟩ | ⟨text, w, g, f, hopen, hw, hcurrent, htable, hheld, hkept⟩
  · rw [hopen]
    exact ⟨hs, nofun⟩
  · rw [hopen]
    exact ⟨hs.with hw hcurrent htable hheld hkept, trivial⟩

/-- To activate a frame leaves a session intact, also when there is no such frame. -/
theorem sustains_activate (g : Generation) : Sustains P (activate g) := by
  intro s hs
  have hget : (get : SessionM Session) s = .ok s s := rfl
  unfold activate
  rw [bind_of_ok hget]
  cases hlookup : s.frames.lookup g with
  | none => exact ⟨hs, nofun⟩
  | some f =>
    refine ⟨⟨hs.tidy, hs.outside, hs.opened, hs.held, fun k hk => ?_, hs.classes⟩, trivial⟩
    cases hk
    exact ⟨f, mem_of_lookup hlookup⟩

/-- A frame that is closed is taken out of the table. -/
theorem Session.Intact.without (hs : s.Intact P) {g : Generation} {f : FrameId}
    (hf : s.runtime.world.Held g f) {w : World Slots} (hw : w.Closes s.runtime.world f) :
    Session.Intact P { s with runtime := { s.runtime with world := w }
                              frames := s.frames.filter (·.1 ≠ g)
                              active := s.active.filter (· ≠ g) } where
  tidy := hw.tidy
  outside := hw.current.trans hs.outside
  opened := by
    rw [hw.table, hf.generation, OpenTable.generations_without, hs.opened, List.filter_map]
    rfl
  held entry hentry := by
    obtain ⟨hmem, hne⟩ := List.mem_filter.mp hentry
    have hheld := hs.held entry hmem
    refine hheld.of_closes hw ?_
    rintro rfl
    exact of_decide_eq_true hne (hheld.generation.symm.trans hf.generation)
  listed k hk := by
    obtain ⟨hactive, hne⟩ := Option.filter_eq_some_iff.mp hk
    obtain ⟨h, hmem⟩ := hs.listed k hactive
    exact ⟨h, List.mem_filter.mpr ⟨hmem, hne⟩⟩
  classes := hs.classes.of_world w

/-- The session without a frame in its table. -/
def Session.dropFrame (s : Session) (g : Generation) : Session :=
  { s with frames := s.frames.filter (·.1 ≠ g), active := s.active.filter (· ≠ g) }

/-- To take a frame from the table finds the one that was asked for, or the active one. -/
theorem takeFrame_apply (target : Option Generation) (s : Session) : takeFrame target s =
    match target <|> s.active with
    | none => .error .noActiveFrame s
    | some g =>
      match s.frames.lookup g with
      | none => .error (.noOpenFrame g) s
      | some f => .ok (g, f) (s.dropFrame g) := by
  have hget : (get : SessionM Session) s = .ok s s := rfl
  unfold takeFrame
  rw [bind_of_ok hget]
  cases target <|> s.active with
  | none => rfl
  | some g =>
    cases hlookup : s.frames.lookup g <;> simp only [hlookup] <;> rfl

/-- A commit that is answered does not break the session. -/
theorem evaluate_commit {f : FrameId} {result : Except Store.Refusal Store.CommitEvent}
    {v : World Slots} (h : s.runtime.world.commit f = (.ok result, v)) :
    evaluate (Store.commit Slots f) s =
      .ok result { s with runtime := { s.runtime with world := v } } := by
  have hmodify : (modifyGetThe (World Slots) fun w => w.commit f : EvalM _) s.runtime =
      .ok (.ok result) { s.runtime with world := v } := by
    change EStateM.Result.ok (s.runtime.world.commit f).1
      { s.runtime with world := (s.runtime.world.commit f).2 } = _
    rw [h]
  unfold evaluate Store.commit
  rw [bind_of_ok hmodify]
  rfl

/-- A commit closes its frame, also where it is refused for a conflict. -/
theorem commitFrame_of_lookup (hs : s.Intact P) {target : Option Generation} {g : Generation}
    {f : FrameId} (htarget : (target <|> s.active) = some g)
    (hlookup : s.frames.lookup g = some f) :
    ∃ v, v.Closes s.runtime.world f ∧
      let t := { s.dropFrame g with runtime := { s.runtime with world := v } }
      (∃ text, commitFrame target s = .ok text t) ∨
        ∃ o typeName committed,
          commitFrame target s = .error (.refusal (.conflict o typeName g committed)) t := by
  have hheld : s.runtime.world.Held g f := hs.held (g, f) (mem_of_lookup hlookup)
  have htake := takeFrame_apply target s
  simp only [htarget, hlookup] at htake
  obtain ⟨v, hcommit, hcloses⟩ := World.closes_commit hs.tidy hheld.lt_length hheld.active
  have hevaluate := evaluate_commit (s := s.dropFrame g) hcommit
  refine ⟨v.release f, hcloses.release hheld.lt_length, ?_⟩
  unfold commitFrame
  rw [bind_of_ok htake]
  change (∃ text, (evaluate (Store.commit Slots f) >>= _) (s.dropFrame g) = _) ∨
    ∃ o typeName committed, (evaluate (Store.commit Slots f) >>= _) (s.dropFrame g) = _
  rw [bind_of_ok hevaluate, bind_of_ok (changeWorld_apply _ _)]
  unfold World.commitResult
  rw [hheld.generation]
  cases s.runtime.world.pendingMerges f with
  | ok merges => exact .inl ⟨_, rfl⟩
  | error e => exact .inr ⟨_, _, _, rfl⟩

/-- A frame of the table is discarded: it leaves the table, and no other frame has changed. -/
theorem discardFrame_of_lookup (hs : s.Intact P) {target : Option Generation} {g : Generation}
    {f : FrameId} (htarget : (target <|> s.active) = some g)
    (hlookup : s.frames.lookup g = some f) :
    ∃ v, v.Closes s.runtime.world f ∧ ∃ text, discardFrame target s =
      .ok text { s.dropFrame g with runtime := { s.runtime with world := v } } := by
  have hheld : s.runtime.world.Held g f := hs.held (g, f) (mem_of_lookup hlookup)
  have htake := takeFrame_apply target s
  simp only [htarget, hlookup] at htake
  have hcloses := World.closes_discard hs.tidy hheld.lt_length hheld.active
  refine ⟨_, hcloses.release hheld.lt_length, "Discarded frame " ++ Store.generationText g, ?_⟩
  unfold discardFrame
  rw [bind_of_ok htake]
  rfl

/-- To take no frame out of the table is not to get further. -/
theorem takeFrame_bind_of_unlisted {x : Generation × FrameId → SessionM β}
    {target : Option Generation}
    (h : ∀ g f, (target <|> s.active) = some g → s.frames.lookup g ≠ some f) :
    (takeFrame target >>= x) s = .error
      ((target <|> s.active).elim .noActiveFrame .noOpenFrame) s := by
  have htake := takeFrame_apply target s
  cases htarget : target <|> s.active with
  | none =>
    rw [htarget] at htake
    rw [bind_of_error htake, Option.elim_none]
  | some g =>
    have hlookup : s.frames.lookup g = none :=
      Option.eq_none_iff_forall_ne_some.mpr fun f => h g f htarget
    simp only [htarget, hlookup] at htake
    rw [bind_of_error htake, Option.elim_some]

/-- A frame that is not in the table is reported, and the session stays as it is. -/
theorem sustained_unlisted (hs : s.Intact P) (closing : Option Generation) :
    Sustained P (.error (closing.elim .noActiveFrame .noOpenFrame) s :
      EStateM.Result Problem Session β) := by
  refine ⟨hs, fun failure hfailure => ?_⟩
  cases closing <;> cases hfailure

/-- To commit a frame leaves a session intact. -/
theorem sustains_commitFrame (target : Option Generation) : Sustains P (commitFrame target) := by
  intro s hs
  by_cases h : ∃ g f, (target <|> s.active) = some g ∧ s.frames.lookup g = some f
  · obtain ⟨g, f, htarget, hlookup⟩ := h
    have hheld := hs.held (g, f) (mem_of_lookup hlookup)
    obtain ⟨v, hcloses, ⟨text, hcommit⟩ | ⟨o, typeName, committed, hcommit⟩⟩ :=
      commitFrame_of_lookup hs htarget hlookup
    · rw [hcommit]
      exact ⟨hs.without hheld hcloses, trivial⟩
    · rw [hcommit]
      exact ⟨hs.without hheld hcloses, nofun⟩
  · unfold commitFrame
    rw [takeFrame_bind_of_unlisted fun g f htarget hlookup => h ⟨g, f, htarget, hlookup⟩]
    exact sustained_unlisted hs _

/-- To discard a frame leaves a session intact. -/
theorem sustains_discardFrame (target : Option Generation) : Sustains P (discardFrame target) := by
  intro s hs
  by_cases h : ∃ g f, (target <|> s.active) = some g ∧ s.frames.lookup g = some f
  · obtain ⟨g, f, htarget, hlookup⟩ := h
    obtain ⟨v, hcloses, text, hdiscard⟩ := discardFrame_of_lookup hs htarget hlookup
    rw [hdiscard]
    exact ⟨hs.without (hs.held (g, f) (mem_of_lookup hlookup)) hcloses, trivial⟩
  · unfold discardFrame
    rw [takeFrame_bind_of_unlisted fun g f htarget hlookup => h ⟨g, f, htarget, hlookup⟩]
    exact sustained_unlisted hs _

/-! ## Commands -/

/-- To find the instance of a variable leaves a session as it is. -/
theorem sustains_instanceOf (var : String) : Sustains P (instanceOf var) := by
  refine keeps_get.bind fun s _ => ?_
  cases s.instances.lookup var with
  | none => exact keeps_throw fun _ => nofun
  | some i => exact keeps_pure trivial

/-- Loading declarations touches the tables of classes only. -/
theorem world_loadModule (r : Runtime) (m : ManagerId) (module : Module) :
    (r.loadModule m module).2.world = r.world := by
  unfold Runtime.loadModule Runtime.loadFramed
  dsimp only
  split
  · rfl
  · split
    · next h => exact (congrArg (·.2.world) h).symm
    · next h => exact (congrArg (·.2.world) h).symm

/-- To load a module leaves a session intact, if its classes are of the kind. -/
theorem sustains_loadModule {module : Module} (hm : ∀ c, LoadedFrom module c → P c) :
    Sustains P (changeRuntime (·.loadModule manager module)) :=
  sustains_changeRuntime (world_loadModule · manager module) fun _ hr => hr.loadModule hm

/-- To load a file leaves a session intact, also when the file cannot be loaded. -/
theorem sustains_loadFile (path : String) {loaded : Except LoadError Module}
    (hm : ∀ module, loaded = .ok module → ∀ c, LoadedFrom module c → P c) :
    Sustains P (loadFile path loaded) :=
  (sustains_orProblem (fun _ _ h => by cases h) loaded).bind fun module hloaded =>
    (sustains_loadModule (hm module hloaded)).bind fun _ _ =>
      (sustains_orProgram _).bind fun _ _ => keeps_pure trivial

/-- To declare classes leaves a session intact, also when the text is no module. -/
theorem sustains_declare {source : String}
    (hm : ∀ module, Grammar.parseModule source = .ok module → ∀ c, LoadedFrom module c → P c) :
    Sustains P (declare source) := by
  have hload : Sustains P (changeRuntime (·.loadSource manager source)) := by
    unfold Runtime.loadSource
    cases hparse : Grammar.parseModule source with
    | ok module => exact sustains_loadModule (hm module hparse)
    | error e => exact sustains_changeRuntime (fun _ => rfl) fun _ => id
  refine hload.bind fun _ _ => ?_
  exact (sustains_orProgram _).bind fun _ _ => keeps_pure trivial

/-- To make an instance leaves a session intact, or breaks it as expected. -/
theorem sustains_newInstance (var className : String) (args : List String) :
    Sustains P (newInstance var className args) :=
  (sustains_orProgram _).bind fun values _ =>
    (sustains_inActiveFrame (Dynamic.safe_makeInstance className values)).bind fun _ _ =>
      (keeps_modify fun _ hs => hs.of_eq rfl rfl rfl).bind fun _ _ =>
        keeps_get.bind fun _ _ => keeps_pure trivial

/-- To read properties leaves a session intact, or breaks it as expected. -/
theorem sustains_getProperties (var : String) (property : Option String) :
    Sustains P (getProperties var property) := by
  refine (sustains_instanceOf var).bind fun i _ => ?_
  cases property with
  | some property =>
    exact (sustains_inActiveFrame (Dynamic.safe_readProperty i property)).bind fun _ _ =>
      keeps_pure trivial
  | none =>
    exact (sustains_inActiveFrame (Dynamic.safe_readProperties i)).bind fun _ _ =>
      keeps_pure trivial

/-- To set a property leaves a session intact, or breaks it as expected. -/
theorem sustains_setProperty (var property text : String) :
    Sustains P (setProperty var property text) :=
  (sustains_instanceOf var).bind fun i _ =>
    (sustains_orProgram _).bind fun value _ =>
      (sustains_inActiveFrame (Dynamic.safe_writeProperty i property value)).bind fun _ _ =>
        keeps_pure trivial

/-- To describe the chain of an object leaves a session as it is. -/
theorem sustains_describeChain (var : String) : Sustains P (describeChain var) := by
  refine (sustains_instanceOf var).bind fun i _ => keeps_get.bind fun s _ => ?_
  dsimp only
  cases (s.runtime.inst i).object with
  | none => exact keeps_throw fun _ => nofun
  | some o => exact keeps_pure trivial

/-- By induction on the objects whose chains are trimmed. -/
theorem rests_collectAll (objects : List ObjectId) {w : World Slots} (hw : w.Tidy)
    (hout : w.current = none) (n : Nat) :
    (objects.foldl (fun ((trimmed, w) : Nat × World Slots) o =>
      let (n, w) := w.collect manager o
      (trimmed + n, w)) (n, w)).2.Rests w := by
  induction objects generalizing w n with
  | nil => exact .refl hw hout
  | cons o rest ih =>
    have hfirst := World.rests_collect hw hout o
    exact hfirst.trans (ih hfirst.tidy hfirst.current _)

/-- To trim all chains leaves a session intact. -/
theorem sustains_collectAll : Sustains P collectAll := by
  refine keeps_get.bind fun s _ => (sustains_changeWorld fun w hw hout => ?_).bind fun _ _ =>
    keeps_pure trivial
  exact rests_collectAll _ hw hout 0

/-- The module that a command declares, given what loading a file gives. -/
def Command.declared? (load : String → Except LoadError Module) : Command → Option Module
  | .load path => (load path).toOption
  | .declare source => (Grammar.parseModule source).toOption
  | _ => none

/-- Every command leaves a session intact, or breaks it as expected. -/
theorem sustains_perform {load : String → Except LoadError Module} {command : Command}
    (hm : ∀ module, command.declared? load = some module → ∀ c, LoadedFrom module c → P c) :
    Sustains P (perform load command) := by
  cases command with
  | help => exact keeps_pure trivial
  | quit =>
    exact (keeps_modify fun _ hs => hs.of_eq rfl rfl rfl).bind fun _ _ =>
      keeps_pure trivial
  | quiet =>
    exact (keeps_modify fun _ hs => hs.of_eq rfl rfl rfl).bind fun _ _ =>
      keeps_get.bind fun _ _ => keeps_pure trivial
  | load path =>
    exact sustains_loadFile path fun module hload =>
      hm module (by rw [Command.declared?, hload]; rfl)
  | declare source =>
    exact sustains_declare fun module hparse => hm module (by rw [Command.declared?, hparse]; rfl)
  | new var className args => exact sustains_newInstance var className args
  | «open» target =>
    cases target with
    | none => exact sustains_openFrame
    | some g => exact sustains_activate g
  | commit target => exact sustains_commitFrame target
  | discard target => exact sustains_discardFrame target
  | get var property => exact sustains_getProperties var property
  | set var property value => exact sustains_setProperty var property value
  | frames => exact keeps_get.bind fun _ _ => keeps_pure trivial
  | chain var => exact sustains_describeChain var
  | gc => exact sustains_collectAll
  | classes => exact keeps_get.bind fun _ _ => keeps_pure trivial

end VersionedObjects.Shell
